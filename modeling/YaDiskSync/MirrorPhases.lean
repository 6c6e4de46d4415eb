import YaDiskSync.FaultRun
import YaDiskSync.MirrorWrites
import YaDiskSync.PhaseFrame

/-! The phases of a plan against the mock client, with nobody else at work. The remote is what the
writes of the trace make of it, nothing stops the run, and the deletes are those of the plan. -/
namespace YaDiskSync

open Prog

namespace Happening

variable {μ : Type}

/-- The change of the remote by a task that has finished or a delete, the local disk being `tree`. -/
def write (tree : LocalTree) : Happening μ → Option RemoteWrite
  | .landed task _ => task.call.write tree
  | .step (.client (.deletePermanently path)) _ => some (.deletePermanently path)
  | .step .. => none

/-- The path a step deletes. -/
def deletion : Happening μ → Option Str
  | .step (.client (.deletePermanently path)) _ => some path
  | _ => none

/-- A write is that of a task's call or a delete. -/
theorem write_cases {tree : LocalTree} {happening : Happening μ} {write : RemoteWrite}
    (h : happening.write tree = some write) :
    (∃ call, happening.taskCall = some call ∧ call.write tree = some write) ∨
      ∃ path, happening.deletion = some path ∧ write = .deletePermanently path := by
  unfold Happening.write at h
  split at h
  · exact Or.inl ⟨_,rfl,h⟩
  · cases h
    exact Or.inr ⟨_,rfl,rfl⟩
  · cases h

end Happening

/-- An undisturbed world around the mock client. -/
abbrev stillEnvironment (ext : Externals) (quota : QuotaInfo) : Environment RemoteDisk :=
  mockEnvironment ext quota fun _ _ => False

theorem stillEnvironment_undisturbed (ext : Externals) (quota : QuotaInfo) :
    FaultIsolation.Undisturbed (stillEnvironment ext quota) :=
  ⟨fun _ _ h => h,fun h => h,fun _ _ h => h.symm⟩

namespace Mirroring

open FaultIsolation

/-- An outcome after which the engine goes on. -/
def Passing (outcome : TaskOutcome) : Prop :=
  (Happening.step (μ := SyncMemory) .joinNext (some outcome)).isStop = false

/-- The remote is what the writes made of it, and nothing has stopped the run. -/
structure Faithful (tree : LocalTree) (start : RemoteDisk) (paths : List Str)
    (s : Traced RemoteDisk SyncMemory) : Prop extends FaultIsolation.Steady tree s where
  remote : s.world.remote = start.applyAll (s.trace.filterMap (Happening.write tree))
  deleted : s.trace.filterMap Happening.deletion = paths
  unstopped : s.trace.any Happening.isStop = false
  passing : ∀ running ∈ s.world.tasks, ∀ outcome, running.outcome = some outcome → Passing outcome

variable {ext : Externals} {quota : QuotaInfo} {disk : LocalTree} {start : RemoteDisk}
  {deleted : List Str} {s s' : Traced RemoteDisk SyncMemory}

theorem Faithful.respected (h : Faithful disk start deleted s) : Respected s :=
  stopsRespected_of_none h.unstopped

/-- The mock client does what the task's call says, and no failure of it stops the run. -/
theorem lands_still {w : World RemoteDisk SyncMemory} {task : Task} {outcome : TaskOutcome}
    {remote : RemoteDisk} (hrunning : w.cancelled = false)
    (h : (stillEnvironment ext quota).Lands w task outcome remote) :
    remote = w.remote.applyAll (task.call.write w.disk).toList ∧ Passing outcome := by
  cases task with
  | createDirectory directory operationId =>
    obtain ⟨answer,hclient,rfl⟩ := h
    cases hclient
    exact ⟨rfl,rfl⟩
  | upload operationId file isUpdate text =>
    rcases h with ⟨hcancelled,_⟩ | ⟨answer,hclient,rfl⟩
    · rw [hrunning] at hcancelled
      cases hcancelled
    · have hanswer : (answer,remote) = w.remote.mockAnswer quota w.disk
          (.uploadSource file.remotePath file.uploadSource) := hclient
      simp only [RemoteDisk.mockAnswer] at hanswer
      simp only [Task.call,ClientCall.write]
      cases hread : w.disk.read file.uploadSource with
      | some content =>
        rw [hread] at hanswer
        cases hanswer
        exact ⟨rfl,rfl⟩
      | none =>
        rw [hread] at hanswer
        cases hanswer
        exact ⟨rfl,rfl⟩

theorem stable_faithful :
    Stable (stillEnvironment ext quota).TraceDrift (Faithful disk start deleted) := by
  intro s s' h hdrift
  have hsteady := stable_steady (stillEnvironment_undisturbed ext quota) s s' h.toSteady hdrift
  cases hdrift with
  | land ht hl =>
    rename_i before after task outcome remote
    obtain ⟨hremote,hpassing⟩ := lands_still h.running hl
    refine ⟨hsteady,?_,?_,?_,fun running hr o ho => ?_⟩
    · have hbefore := h.remote
      simp only [List.filterMap_append,RemoteDisk.applyAll_append,← hbefore]
      rw [hremote,h.disk]
      simp only [List.filterMap_cons,Happening.write,List.filterMap_nil]
      cases task.call.write disk <;> rfl
    · simp only [List.filterMap_append,h.deleted,List.filterMap_cons,Happening.deletion,
        List.filterMap_nil,List.append_nil]
    · simp only [List.any_append,h.unstopped,Bool.false_or]
      rfl
    · rcases List.mem_append.mp hr with hr | hr
      · exact h.passing running (by simp [ht,hr]) o ho
      rcases List.mem_cons.mp hr with rfl | hr
      · cases ho
        exact hpassing
      · exact h.passing running (by simp [ht,hr]) o ho
  | disk hd => exact absurd hd fun h => h
  | cancel hc => exact absurd hc fun h => h
  | tick _ => exact ⟨hsteady,h.remote,h.deleted,h.unstopped,h.passing⟩

variable {env : Environment RemoteDisk}
  {allowed : Traced RemoteDisk SyncMemory → (e : Effect SyncMemory) → e.Answer → Prop}

/-- A step that writes nothing and stops nothing. -/
theorem Faithful.step (h : Faithful disk start deleted s) {e : Effect SyncMemory}
    {answer : e.Answer} (hstep : env.TraceStep allowed s e answer s')
    (hwrite : (Happening.step e answer).write disk = none)
    (hdeletion : (Happening.step e answer).deletion = none)
    (hstop : (Happening.step e answer).isStop = false)
    (hremote : s'.world.remote = s.world.remote)
    (htasks : ∀ running ∈ s'.world.tasks, running ∈ s.world.tasks ∨ running.outcome = none) :
    Faithful disk start deleted s' := by
  obtain ⟨_,hperform,htrace⟩ := hstep
  refine ⟨h.toSteady.of_perform hperform,?_,?_,?_,fun running hr outcome ho => ?_⟩
  · rw [hremote,htrace,List.filterMap_append,h.remote]
    simp [hwrite]
  · rw [htrace,List.filterMap_append,h.deleted]
    simp [hdeletion]
  · rw [htrace,List.any_append,h.unstopped]
    simp [hstop]
  · rcases htasks running hr with hold | hnew
    · exact h.passing running hold outcome ho
    · rw [hnew] at ho
      cases ho

theorem Faithful.mute (h : Faithful disk start deleted s) {e : Effect SyncMemory}
    {answer : e.Answer} (he : Mute e = true) (hstep : env.TraceStep allowed s e answer s') :
    Faithful disk start deleted s' := by
  have hclient : ∀ call, e ≠ .client call := by
    rintro call rfl
    cases he
  refine h.step hstep ?_ ?_ (Mute.not_stop he answer).1 (hstep.2.1.remote_eq hclient)
    fun running hr => Or.inl ?_
  · cases e <;> first | rfl | cases he
  · cases e <;> first | rfl | cases he
  · rwa [hstep.2.1.tasks_eq (Mute.onTasks he)] at hr

/-- Starting, joining and dropping tasks. -/
theorem Faithful.onTasks (h : Faithful disk start deleted s) {e : Effect SyncMemory}
    {answer : e.Answer} (he : e.onTasks = true) (hstep : env.TraceStep allowed s e answer s') :
    Faithful disk start deleted s' := by
  have hremote : s'.world.remote = s.world.remote := hstep.2.1.remote_eq fun call hc => by
    subst hc
    cases he
  have hperform := hstep.2.1
  cases e with
  | spawn task =>
    have hworld : s'.world = { s.world with tasks := s.world.tasks ++ [{ task }] } := hperform
    refine h.step hstep rfl rfl rfl hremote fun running hr => ?_
    rw [hworld] at hr
    rcases List.mem_append.mp hr with hr | hr
    · exact Or.inl hr
    · rw [List.mem_singleton.mp hr]
      exact Or.inr rfl
  | dropTasks =>
    have hworld : s'.world = { s.world with tasks := [] } := hperform
    refine h.step hstep rfl rfl rfl hremote fun running hr => ?_
    rw [hworld] at hr
    cases hr
  | joinNext =>
    rcases hperform with ⟨rfl,_,hw⟩ | ⟨before,task,outcome,after,rfl,ht,hw⟩
    · exact h.step hstep rfl rfl rfl hremote fun running hr => Or.inl (hw ▸ hr)
    · refine h.step hstep rfl rfl ?_ hremote fun running hr => Or.inl ?_
      · exact h.passing { task, outcome := some outcome } (by simp [ht]) outcome rfl
      · rw [hw] at hr
        rw [ht]
        simp only [List.mem_append,List.mem_cons] at hr ⊢
        tauto
  | _ => cases he

theorem keptLocally_faithful :
    SyncEngine.KeptLocally (stillEnvironment ext quota) SoundStep Respected
      (Faithful disk start deleted) where
  stable := stable_faithful
  cut _ h := h.respected
  local_step _ e _ _ he h hstep := h.mute (by cases e <;> first | rfl | cases he) hstep

section Bases

variable {calls : List ClientCall} {remote : RemoteDisk} {φ : SyncMemory → Prop}

/-- Between two phases: the calls made, the paths deleted, and the remote they have led to. -/
def Bound (disk : LocalTree) (start : RemoteDisk) (calls : List ClientCall) (deleted : List Str)
    (s : Traced RemoteDisk SyncMemory) : Prop :=
  Alone disk calls [] s ∧ Faithful disk start deleted s

/-- The same with the remote as it is. -/
def Seen (disk : LocalTree) (start : RemoteDisk) (calls : List ClientCall) (deleted : List Str)
    (remote : RemoteDisk) (s : Traced RemoteDisk SyncMemory) : Prop :=
  Bound disk start calls deleted s ∧ s.world.remote = remote

theorem base_bound :
    Base (stillEnvironment ext quota) disk (Bound disk start calls deleted) where
  stable := (base_alone (stillEnvironment_undisturbed ext quota)).stable.and stable_faithful
  steady _ h := h.2.toSteady
  respected _ h := h.2.respected
  mute s e answer s' he h hstep :=
    ⟨(base_alone (stillEnvironment_undisturbed ext quota)).mute s e answer s' he h.1 hstep,
      h.2.mute he hstep⟩

theorem base_seen :
    Base (stillEnvironment ext quota) disk (Seen disk start calls deleted remote) where
  stable := by
    intro s s' h hdrift
    refine ⟨base_bound.stable s s' h.1 hdrift,?_⟩
    cases hdrift with
    | land ht _ => simp [h.1.1.2] at ht
    | disk _ => exact h.2
    | cancel _ => exact h.2
    | tick _ => exact h.2
  steady _ h := h.1.2.toSteady
  respected _ h := h.1.2.respected
  mute s e answer s' he h hstep := by
    refine ⟨base_bound.mute s e answer s' he h.1 hstep,(hstep.2.1.remote_eq ?_).trans h.2⟩
    rintro call rfl
    cases he

/-- A look at the remote. -/
theorem look_runs (hφ : Unsummarized φ) {call : ClientCall}
    (hsame : ∀ remote : RemoteDisk, ∀ tree, (remote.mockAnswer quota tree call).2 = remote)
    (hwrite : ∀ answer, (Happening.step (μ := SyncMemory) (.client call) answer).write disk = none ∧
      (Happening.step (μ := SyncMemory) (.client call) answer).deletion = none)
    (hstop : (Happening.step (μ := SyncMemory) (.client call)
      (remote.mockAnswer quota disk call).1).isStop = false) {ε : Type} :
    Runs (stillEnvironment ext quota) (On (Seen disk start calls deleted remote) φ)
      (asking ε (.client call))
      fun answer s => answer = (remote.mockAnswer quota disk call).1 ∧
        On (Seen disk start calls deleted remote) φ s := by
  have hk : Kept (stillEnvironment ext quota) disk (On (Seen disk start calls deleted remote) φ) :=
    base_seen.kept hφ
  refine TryTriple.perform hk.stable hk.respected fun s answer s' h hstep => ?_
  obtain ⟨after,hclient,hworld⟩ := hstep.2.1
  have hpair : (answer,after) = s.world.remote.mockAnswer quota s.world.disk call := hclient
  rw [h.1.2,h.1.1.2.disk] at hpair
  have hanswer : answer = (remote.mockAnswer quota disk call).1 := congrArg Prod.fst hpair
  have hafter : after = remote := (congrArg Prod.snd hpair).trans (hsame remote disk)
  have hremote : s'.world.remote = s.world.remote := by rw [hworld,h.1.2,hafter]
  subst hanswer
  have hfaithful : Faithful disk start deleted s' := by
    refine h.1.1.2.step hstep (hwrite _).1 (hwrite _).2 hstop hremote fun running hr => Or.inl ?_
    rwa [hworld] at hr
  refine ⟨rfl,⟨⟨⟨h.1.1.1.append rfl hstop hstep,hfaithful⟩,hremote.trans h.1.2⟩,?_⟩⟩
  rw [hstep.2.1.memory_eq (by simp)]
  exact h.2

/-- A delete of the plan. -/
theorem delete_runs (hφ : Unsummarized φ) (path : Str) :
    Runs (stillEnvironment ext quota) (On (Bound disk start calls deleted) φ)
      (SyncEngine.client (.deletePermanently path))
      fun answer s => answer = .ok () ∧ On (Bound disk start calls (deleted ++ [path])) φ s := by
  have hk : Kept (stillEnvironment ext quota) disk (On (Bound disk start calls deleted) φ) :=
    base_bound.kept hφ
  refine TryTriple.perform hk.stable hk.respected fun s answer s' h hstep => ?_
  obtain ⟨after,hclient,hworld⟩ := hstep.2.1
  have hpair : (answer,after) =
      s.world.remote.mockAnswer quota s.world.disk (.deletePermanently path) := hclient
  cases hpair
  have halone := h.1.1.append rfl rfl hstep
  refine ⟨rfl,⟨halone,⟨halone.1.toSteady,?_,?_,halone.1.unstopped,?_⟩⟩,?_⟩
  · rw [hworld,hstep.2.2,List.filterMap_append,RemoteDisk.applyAll_append,← h.1.2.remote]
    rfl
  · rw [hstep.2.2,List.filterMap_append,h.1.2.deleted]
    rfl
  · intro running hr
    rw [halone.2] at hr
    cases hr
  · rw [hstep.2.1.memory_eq (by simp)]
    exact h.2

end Bases

section Phases

variable {calls calls' : List ClientCall} {plan : LiveScanPlan} {report : SyncRunReport}
  (config : AppConfig) (root : SyncRootConfig) (runId : Int) (baseSummary : SyncRunSummary)
  {canonical : Str}

/-- A phase that keeps the remote in step goes through. -/
theorem phase_runs {α : Type} {p : Engine α} {stop : α → Bool}
    (hrun : Runs (stillEnvironment ext quota) (Busy disk plan report calls []) p
      fun a => Through disk plan report calls' [] (stop a))
    (hkept : TryTriple ((stillEnvironment ext quota).TraceStep SoundStep)
      (stillEnvironment ext quota).TraceDrift
      (fun s => Faithful disk start deleted s ∧ s.world.tasks = []) p
      (fun _ s => Faithful disk start deleted s ∧ s.world.tasks = []) Respected Respected) :
    Runs (stillEnvironment ext quota) (On (Bound disk start calls deleted) (Planned plan report)) p
      fun a s => stop a = false ∧ On (Bound disk start calls' deleted) (Planned plan report) s := by
  refine (hrun.and hkept).weaken (fun s h => ⟨⟨h.1.1,h.2⟩,h.1.2,h.1.1.2⟩) (fun a s h => ?_)
    (fun _ h => h.1) fun _ h => h.1
  obtain ⟨hthrough,hfaithful,_⟩ := h
  cases hstop : stop a with
  | true =>
    rw [hstop] at hthrough
    have hstopped := hthrough.1.stopped
    rw [hfaithful.unstopped] at hstopped
    cases hstopped
  | false =>
    rw [hstop] at hthrough
    exact ⟨rfl,⟨hthrough.1,hfaithful⟩,hthrough.2⟩

theorem kept_bound : Kept (stillEnvironment ext quota) disk
    (On (Bound disk start calls deleted) (Planned plan report)) :=
  base_bound.kept unsummarized_planned

theorem deleteEach_runs (deletes : List RemoteDeleteOperation) :
    Runs (stillEnvironment ext quota) (On (Bound disk start calls deleted) (Planned plan report))
      (SyncEngine.deleteEach root runId baseSummary false deletes)
      fun stop s => stop = false ∧ On (Bound disk start calls
        (deleted ++ deletes.map RemoteDeleteOperation.remotePath)) (Planned plan report) s := by
  induction deletes generalizing deleted with
  | nil => exact TryTriple.pure fun _ h => ⟨rfl,by simpa using h⟩
  | cons delete deletes ih =>
    refine TryTriple.bind (isCancelled_runs kept_bound) fun cancelled =>
      TryTriple.of_pure (fun s h => h.1) ?_
    rintro rfl
    have hdelete : Runs (stillEnvironment ext quota)
        (On (Bound disk start calls deleted) (Planned plan report))
        (SyncEngine.applyDelete root runId baseSummary false delete)
        fun stop s => stop = false ∧ On (Bound disk start calls (deleted ++ [delete.remotePath]))
          (Planned plan report) s := by
      refine TryTriple.bind (FaultIsolation.state_runs kept_bound _) fun operationId => ?_
      refine TryTriple.bind (delete_runs unsummarized_planned delete.remotePath) fun answer =>
        TryTriple.of_pure (fun s h => h.1) ?_
      rintro rfl
      refine TryTriple.bind ((recordDeleted_runs runId kept_bound operationId delete).pre
        fun _ h => h.2) fun _ => ?_
      exact TryTriple.bind (modifySummary_runs kept_bound _) fun _ =>
        TryTriple.bind ((quiet_runs kept_bound runId baseSummary).persistRootProgress) fun _ =>
          TryTriple.pure fun _ h => ⟨rfl,h⟩
    refine TryTriple.bind (hdelete.pre fun _ h => h.2) fun stop =>
      TryTriple.of_pure (fun s h => h.1) ?_
    rintro rfl
    refine (ih.pre fun _ h => h.2).post fun stop s h => ?_
    rw [List.map_cons,List.append_cons]
    exact h

/-- The three phases of a plan, none of which stops. -/
theorem applyPlan_runs (hplan : plan.deletedSubtrees = []) (scanReport : ScanReport)
    (rootPlan : RootPlan) (inventory : Inventory)
    (hcreates : ∀ d ∈ rootPlan.createDirectories, Present disk plan.rootLocalPath d.localPath)
    (huploads : ∀ u ∈ rootPlan.uploads, Present disk plan.rootLocalPath u.1.localPath) :
    Runs (stillEnvironment ext quota) (On (Bound disk start calls deleted) (Planned plan report))
      (SyncEngine.applyPlan config root runId baseSummary canonical scanReport rootPlan
        { resources := inventory, fromCache := false })
      fun result s => result.shouldStop = false ∧ On (Bound disk start
        (calls ++ createCalls rootPlan.createDirectories ++ uploadCalls rootPlan.uploads)
        (deleted ++ (collectCoalescedDeleteOperations root canonical plan inventory).map
          RemoteDeleteOperation.remotePath)) (Planned plan report) s := by
  have hu := stillEnvironment_undisturbed ext quota
  have htasks : ∀ (deleted : List Str) (s : Traced RemoteDisk SyncMemory) e answer s',
      e.onTasks = true → Faithful disk start deleted s →
        (stillEnvironment ext quota).TraceStep SoundStep s e answer s' →
          Faithful disk start deleted s' := fun _ _ _ _ _ he h hstep => h.onTasks he hstep
  refine TryTriple.bind (phase_runs (applyCreateDirectories_runs hu root runId baseSummary hplan
    config rootPlan hcreates) (keptLocally_faithful.applyCreateDirectories config root runId
      baseSummary (htasks deleted) rootPlan)) fun stop => TryTriple.of_pure (fun s h => h.1) ?_
  rintro rfl
  refine TryTriple.bind ((isCancelled_runs kept_bound).pre fun _ h => h.2) fun cancelled =>
    TryTriple.of_pure (fun s h => h.1) ?_
  rintro rfl
  refine TryTriple.bind ((phase_runs (applyUploads_runs hu root runId baseSummary hplan config
    rootPlan huploads) (keptLocally_faithful.applyUploads config root runId baseSummary
      (htasks deleted) rootPlan)).pre fun _ h => h.2) fun uploaded =>
        TryTriple.of_pure (fun s h => h.1) fun huploaded => ?_
  refine TryTriple.bind ((cleanup_runs kept_bound scanReport.files).pre fun _ h => h.2) fun _ => ?_
  refine TryTriple.bind (isCancelled_runs kept_bound) fun cancelled =>
    TryTriple.of_pure (fun s h => h.1) ?_
  rintro rfl
  rw [huploaded]
  have hdeletes : Runs (stillEnvironment ext quota) (On (Bound disk start
      (calls ++ createCalls rootPlan.createDirectories ++ uploadCalls rootPlan.uploads) deleted)
        (Planned plan report))
      (SyncEngine.applyDeletes root runId baseSummary canonical inventory false)
      fun stop s => stop = false ∧ On (Bound disk start
        (calls ++ createCalls rootPlan.createDirectories ++ uploadCalls rootPlan.uploads)
        (deleted ++ (collectCoalescedDeleteOperations root canonical plan inventory).map
          RemoteDeleteOperation.remotePath)) (Planned plan report) s := by
    refine TryTriple.bind (livePlan_runs base_bound) fun found =>
      TryTriple.of_pure (fun s h => h.1) ?_
    rintro rfl
    exact (deleteEach_runs root runId baseSummary _).pre fun _ h => h.2
  refine TryTriple.bind (hdeletes.pre fun _ h => h.2) fun stop =>
    TryTriple.of_pure (fun s h => h.1) ?_
  rintro rfl
  refine TryTriple.bind (((reporting_runs kept_bound).finishRootCancelledOrFailed root).pre
    fun _ h => h.2) fun _ => ?_
  exact TryTriple.bind ((quiet_runs kept_bound runId baseSummary).persistRootProgress) fun _ =>
    TryTriple.pure fun _ h => ⟨rfl,h⟩

end Phases

end Mirroring

end YaDiskSync

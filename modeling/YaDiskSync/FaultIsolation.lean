import YaDiskSync.SyncFrame
import YaDiskSync.Trace

/-! Faults of a sync run. One failed operation neither keeps another from being attempted nor
lets one be attempted twice, until an error that stops the run: then nothing is started. -/
namespace YaDiskSync

open Prog

namespace Happening

variable {μ : Type}

/-- The call of a task that has been carried out. -/
def taskCall : Happening μ → Option ClientCall
  | .landed task _ => some task.call
  | .step .. => none

/-- Steps that issue client calls, at once or by a task. -/
def issues : Happening μ → Bool
  | .step (.client _) _ | .step (.spawn _) _ => true
  | _ => false

/-- An error that stops the run: the two upload errors that skip the file do not. -/
def isStop : Happening μ → Bool
  | .step .joinNext (some (.created _ _ (.error error))) => isStopError error.kind
  | .step .joinNext (some (.uploaded { result := .error failure, .. })) =>
    failure.shouldStop && failure.skipReasonCode.isNone
  | .step (.client (.deletePermanently _)) (.error error)
  | .step (.client (.metadata _)) (.error error)
  | .step (.client (.listRecursive ..)) (.error error) => isStopError error.kind
  | _ => false

/-- A planned delete was attempted, found done already, or counted as failed. -/
def settles (path : Str) : Happening μ → Bool
  | .step (.client (.deletePermanently p)) _ => p == path
  | .step (.client (.metadata p)) (.error error) => p == path && error.kind == .notFound
  | .step (.state (.markFailed record)) _ =>
    record.operation == "delete_remote_metadata_check".toList && record.remotePath == some path
  | _ => false

end Happening

/-- After the first stop nothing is issued. -/
def stopsRespected {μ : Type} (stop : Happening μ → Bool) : List (Happening μ) → Bool
  | [] => true
  | happening :: trace =>
    if stop happening then !trace.any Happening.issues else stopsRespected stop trace

/-- The call of a planned create or upload. -/
def SyncPlanOperation.call : SyncPlanOperation → Option ClientCall
  | .createDirectory directory => some (.createDirectory directory.remotePath)
  | .uploadFile file _ => some (.uploadSource file.remotePath file.uploadSource)
  | .deleteRemote _ => none

/-- The database answers, staged copies can be removed, and the quota suffices. -/
def SoundStep {ρ μ : Type} (_ : Traced ρ μ) : (e : Effect μ) → e.Answer → Prop
  | .state (.markFailed record), answer =>
    answer.isOk = true ∧ record.operation ≠ "quota_check".toList
  | .state _, answer => answer.isOk = true
  | .removeFile _, answer => match answer with
    | .ok _ => True
    | .error error => error.kind = .notFound
  | _, _ => True

section Traces

variable {μ : Type} {stop : Happening μ → Bool} {trace : List (Happening μ)}
  {happening : Happening μ}

theorem stopsRespected_of_none (h : trace.any stop = false) : stopsRespected stop trace = true := by
  induction trace with
  | nil => rfl
  | cons first trace ih =>
    rw [List.any_cons,Bool.or_eq_false_iff] at h
    simp [stopsRespected,h.1,ih h.2]

theorem stopsRespected_append (h : stopsRespected stop trace = true)
    (hnext : happening.issues = true → trace.any stop = false) :
    stopsRespected stop (trace ++ [happening]) = true := by
  induction trace with
  | nil =>
    rw [List.nil_append,stopsRespected]
    split <;> rfl
  | cons first trace ih =>
    rw [List.cons_append]
    rw [stopsRespected] at h ⊢
    split
    · rename_i hs
      rw [if_pos hs] at h
      have hissues : happening.issues = false := by
        by_contra hi
        have hnone := hnext (by simpa using hi)
        rw [List.any_cons,hs] at hnone
        cases hnone
      simp only [List.any_append,Bool.not_eq_eq_eq_not,Bool.not_true] at h ⊢
      simp [h,hissues]
    · rename_i hs
      rw [if_neg hs] at h
      refine ih h fun hi => ?_
      have hnone := hnext hi
      rw [List.any_cons,Bool.or_eq_false_iff] at hnone
      exact hnone.2

end Traces

namespace FaultIsolation

variable {ρ : Type}

/-- The calls that have been made by tasks or will be. -/
def issued (s : Traced ρ SyncMemory) : List ClientCall :=
  s.trace.filterMap Happening.taskCall ++
    (s.world.tasks.filter fun running => running.outcome.isNone).map fun running =>
      running.task.call

/-- The disk stays as it is and nobody cancels. -/
structure Steady (disk : LocalTree) (s : Traced ρ SyncMemory) : Prop where
  disk : s.world.disk = disk
  running : s.world.cancelled = false

/-- What a run keeps while nothing has stopped it: the calls made or pending, and the deletes
that are settled. -/
structure Working (disk : LocalTree) (calls : List ClientCall) (settled : List Str)
    (s : Traced ρ SyncMemory) : Prop extends Steady disk s where
  issued : (issued s).Perm calls
  settled : ∀ path ∈ settled, s.trace.any (Happening.settles path) = true
  unstopped : s.trace.any Happening.isStop = false

/-- What a run keeps once something has stopped it. -/
structure Halting (disk : LocalTree) (s : Traced ρ SyncMemory) : Prop extends Steady disk s where
  stopped : s.trace.any Happening.isStop = true
  respected : stopsRespected Happening.isStop s.trace = true

def Respected (s : Traced ρ SyncMemory) : Prop :=
  stopsRespected Happening.isStop s.trace = true

/-- Steps that neither call the client nor touch the tasks. -/
def Mute : Effect SyncMemory → Bool
  | .client _ | .spawn _ | .joinNext | .dropTasks => false
  | _ => true

theorem Mute.not_stop {e : Effect SyncMemory} (he : Mute e = true) (answer : e.Answer) :
    (Happening.step e answer).isStop = false ∧ (Happening.step e answer).issues = false := by
  cases e <;> first | exact ⟨rfl,rfl⟩ | cases he

theorem Mute.onTasks {e : Effect SyncMemory} (he : Mute e = true) : e.onTasks = false := by
  cases e <;> first | rfl | cases he

variable {disk : LocalTree} {calls : List ClientCall} {settled : List Str}
  {s s' : Traced ρ SyncMemory}

theorem Working.respected (h : Working disk calls settled s) : Respected s :=
  stopsRespected_of_none h.unstopped

/-- A happening that calls nothing and stops nothing. -/
theorem Working.append (h : Working disk calls settled s) {happening : Happening SyncMemory}
    {calls' : List ClientCall} (hsteady : Steady disk s')
    (htrace : s'.trace = s.trace ++ [happening])
    (hissued : (FaultIsolation.issued s').Perm calls') (hstop : happening.isStop = false) :
    Working disk calls' settled s' where
  toSteady := hsteady
  issued := hissued
  settled path hp := by simp [htrace,h.settled path hp]
  unstopped := by simp [htrace,h.unstopped,hstop]

theorem Halting.append (h : Halting disk s) {happening : Happening SyncMemory}
    (hsteady : Steady disk s') (htrace : s'.trace = s.trace ++ [happening])
    (hissues : happening.issues = false) : Halting disk s' where
  toSteady := hsteady
  stopped := by simp [htrace,h.stopped]
  respected := by
    rw [htrace]
    exact stopsRespected_append h.respected fun hi => by simp [hissues] at hi

theorem Steady.of_perform {env : Environment ρ} (h : Steady disk s) {e : Effect SyncMemory}
    {answer : e.Answer} (hperform : env.Perform s.world e answer s'.world) : Steady disk s' := by
  obtain ⟨hdisk,hcancelled,_⟩ := hperform.outside_eq
  exact ⟨hdisk.trans h.disk,hcancelled.trans h.running⟩

/-- Nobody cancels or touches the disk, and a scan sees it as it is. -/
structure Undisturbed (env : Environment ρ) : Prop where
  disk : ∀ disk disk', ¬ env.diskStep disk disk'
  cancels : ¬ env.cancels
  scanned : ∀ disk tree, env.scanned disk tree → tree = disk

section Stable

variable {env : Environment ρ} (hu : Undisturbed env)

include hu

theorem stable_steady : Stable env.TraceDrift (Steady (ρ := ρ) disk) := fun _ _ h hdrift =>
  ⟨(hdrift.disk_eq hu.disk).trans h.disk,(hdrift.cancelled_eq hu.cancels).trans h.running⟩

theorem stable_working : Stable env.TraceDrift (Working (ρ := ρ) disk calls settled) := by
  intro s s' h hdrift
  have hsteady := stable_steady hu s s' h.toSteady hdrift
  cases hdrift with
  | land ht hl =>
    rename_i before after task outcome remote
    refine h.append hsteady rfl ?_ rfl
    -- a call moves from the pending ones to those made
    have hissued := h.issued
    unfold FaultIsolation.issued at hissued ⊢
    simp only [ht,List.filterMap_append,List.filter_append,List.map_append,List.filter_cons,
      Option.isNone_none,Option.isNone_some,if_true,List.map_cons,List.filterMap_cons,
      List.filterMap_nil,Happening.taskCall,Bool.false_eq_true,if_false] at hissued ⊢
    refine List.Perm.trans ?_ hissued
    rw [List.append_assoc,List.singleton_append]
    exact List.Perm.append_left _ List.perm_middle.symm
  | disk hd => exact absurd hd (hu.disk _ _)
  | cancel hc => exact absurd hc hu.cancels
  | tick _ => exact ⟨hsteady,h.issued,h.settled,h.unstopped⟩

theorem stable_halting : Stable env.TraceDrift (Halting (ρ := ρ) disk) := by
  intro s s' h hdrift
  have hsteady := stable_steady hu s s' h.toSteady hdrift
  cases hdrift with
  | land ht hl => exact h.append hsteady rfl rfl
  | disk hd => exact absurd hd (hu.disk _ _)
  | cancel hc => exact absurd hc hu.cancels
  | tick _ => exact ⟨hsteady,h.stopped,h.respected⟩

end Stable

section Runs

variable {env : Environment ρ}

variable (env) in
/-- A triple of sound runs, which end in no error. -/
abbrev Runs {ε α : Type} (P : Traced ρ SyncMemory → Prop)
    (p : ExceptT ε (Prog (Effect SyncMemory) Effect.Answer) α)
    (Q : α → Traced ρ SyncMemory → Prop) : Prop :=
  TryTriple (env.TraceStep SoundStep) env.TraceDrift P p Q (fun _ => False) Respected

/-- Mute steps that at most count in the root's summary. -/
def Calm : Effect SyncMemory → Prop
  | .updateMemory f => ∀ memory, f memory = { memory with rootSummary := (f memory).rootSummary }
  | e => Mute e = true

theorem Calm.mute {e : Effect SyncMemory} (he : Calm e) : Mute e = true := by
  cases e <;> first | rfl | exact he

/-- What calm steps and drifts keep. -/
structure Kept (env : Environment ρ) (disk : LocalTree) (I : Traced ρ SyncMemory → Prop) :
    Prop where
  stable : Stable env.TraceDrift I
  steady : ∀ s, I s → Steady disk s
  respected : ∀ s, I s → Respected s
  calm : ∀ s (e : Effect SyncMemory) answer s', Calm e → I s →
    env.TraceStep SoundStep s e answer s' → I s'

/-- An invariant together with a fact about the memory. -/
def On (I : Traced ρ SyncMemory → Prop) (φ : SyncMemory → Prop) (s : Traced ρ SyncMemory) :
    Prop := I s ∧ φ s.world.memory

/-- Facts that do not look at the summary of the root. -/
def Unsummarized (φ : SyncMemory → Prop) : Prop :=
  ∀ memory summary, φ memory → φ { memory with rootSummary := summary }

theorem Working.mute (h : Working disk calls settled s) {e : Effect SyncMemory}
    {answer : e.Answer} (he : Mute e = true) (hstep : env.TraceStep SoundStep s e answer s') :
    Working disk calls settled s' := by
  obtain ⟨_,hperform,htrace⟩ := hstep
  refine h.append (h.toSteady.of_perform hperform) htrace ?_ (Mute.not_stop he answer).1
  have hissued := h.issued
  unfold FaultIsolation.issued at hissued ⊢
  rw [hperform.tasks_eq (Mute.onTasks he),htrace,List.filterMap_append]
  simpa [List.filterMap_cons,Happening.taskCall] using hissued

theorem Halting.mute (h : Halting disk s) {e : Effect SyncMemory} {answer : e.Answer}
    (he : Mute e = true) (hstep : env.TraceStep SoundStep s e answer s') : Halting disk s' :=
  h.append (h.toSteady.of_perform hstep.2.1) hstep.2.2 (Mute.not_stop he answer).2

theorem memory_of_calm {e : Effect SyncMemory} {answer : e.Answer} {φ : SyncMemory → Prop}
    (hφ : Unsummarized φ) (he : Calm e) (h : φ s.world.memory)
    (hperform : env.Perform s.world e answer s'.world) : φ s'.world.memory := by
  cases e with
  | updateMemory f =>
    rw [show s'.world = { s.world with memory := f s.world.memory } from hperform]
    show φ (f s.world.memory)
    rw [he s.world.memory]
    exact hφ _ _ h
  | _ =>
    rw [hperform.memory_eq (by simp)]
    exact h

/-- What drifts and mute steps keep, whatever the memory is. -/
structure Base (env : Environment ρ) (disk : LocalTree) (B : Traced ρ SyncMemory → Prop) :
    Prop where
  stable : Stable env.TraceDrift B
  steady : ∀ s, B s → Steady disk s
  respected : ∀ s, B s → Respected s
  mute : ∀ s (e : Effect SyncMemory) answer s', Mute e = true → B s →
    env.TraceStep SoundStep s e answer s' → B s'

theorem base_halting (hu : Undisturbed env) : Base env disk (Halting disk) where
  stable := stable_halting hu
  steady _ h := h.toSteady
  respected _ h := h.respected
  mute _ _ _ _ he h hstep := h.mute he hstep

variable {B : Traced ρ SyncMemory → Prop}

theorem Base.kept (hb : Base env disk B) {φ : SyncMemory → Prop} (hφ : Unsummarized φ) :
    Kept env disk (On B φ) where
  stable s s' h hdrift := ⟨hb.stable s s' h.1 hdrift,by rw [hdrift.memory_eq]; exact h.2⟩
  steady s h := hb.steady s h.1
  respected s h := hb.respected s h.1
  calm s e answer s' he h hstep :=
    ⟨hb.mute s e answer s' he.mute h.1 hstep,memory_of_calm hφ he h.2 hstep.2.1⟩

theorem kept_halting (hu : Undisturbed env) : Kept env disk (Halting disk) where
  stable := stable_halting hu
  steady _ h := h.toSteady
  respected _ h := h.respected
  calm _ _ _ _ he h hstep := h.mute he.mute hstep

variable {I : Traced ρ SyncMemory → Prop} (hk : Kept env disk I)

theorem SoundStep.isOk {call : StateCall} {answer : Except StateError call.Result}
    (h : SoundStep s (.state call) answer) : answer.isOk = true := by
  cases call <;> first | exact h | exact h.1

include hk

theorem calm_runs {e : Effect SyncMemory} (he : Calm e) :
    Runs env I (SyncEngine.perform e) fun _ => I :=
  TryTriple.perform hk.stable hk.respected fun s answer s' h hstep =>
    hk.calm s e answer s' he h hstep

/-- A repository call always has its result. -/
theorem state_runs (call : StateCall) : Runs env I (SyncEngine.state call) fun _ => I := by
  have hcall : Runs env I (SyncEngine.perform (.state call)) fun answer s =>
      answer.isOk = true ∧ I s :=
    TryTriple.perform hk.stable hk.respected fun s answer s' h hstep =>
      ⟨SoundStep.isOk hstep.1,hk.calm s _ answer s' rfl h hstep⟩
  refine TryTriple.bind hcall fun answer => ?_
  cases answer with
  | ok result => exact TryTriple.pure fun _ h => h.2
  | error error => exact TryTriple.throw fun _ h => by simp [Except.isOk,Except.toBool] at h

theorem isDir_runs (path : LocalPath) : Runs env I (SyncEngine.perform (.isDir path))
    fun found s => found = disk.isDir path ∧ I s := by
  refine TryTriple.perform hk.stable hk.respected fun s answer s' h hstep => ⟨?_,?_⟩
  · rw [← (hk.steady s h).disk]
    exact hstep.2.1.1
  · exact hk.calm s (.isDir path) answer s' rfl h hstep

theorem pathExists_runs (path : LocalPath) : Runs env I (SyncEngine.perform (.pathExists path))
    fun found s => found = disk.pathExists path ∧ I s := by
  refine TryTriple.perform hk.stable hk.respected fun s answer s' h hstep => ⟨?_,?_⟩
  · rw [← (hk.steady s h).disk]
    exact hstep.2.1.1
  · exact hk.calm s (.pathExists path) answer s' rfl h hstep

theorem isCancelled_runs : Runs env I SyncEngine.isCancelled
    fun cancelled s => cancelled = false ∧ I s := by
  refine TryTriple.perform hk.stable hk.respected fun s answer s' h hstep => ⟨?_,?_⟩
  · rw [← (hk.steady s h).running]
    exact hstep.2.1.1
  · exact hk.calm s .isCancelled answer s' rfl h hstep

theorem memory_runs : Runs env I SyncEngine.memory fun memory s =>
    s.world.memory = memory ∧ I s := by
  refine TryTriple.perform hk.stable hk.respected fun s answer s' h hstep => ⟨?_,?_⟩
  · rw [hstep.2.1.1,hstep.2.1.2]
  · exact hk.calm s .readMemory answer s' rfl h hstep

theorem cleanup_runs (files : List LocalFileEntry) :
    Runs env I (SyncEngine.cleanupStagingFiles files) fun _ => I := by
  induction files with
  | nil => exact TryTriple.pure fun _ h => h
  | cons file files ih =>
    unfold SyncEngine.cleanupStagingFiles
    cases file.sqliteBackupStagingPath with
    | none => exact ih
    | some path =>
      have hremove : Runs env I (SyncEngine.perform (.removeFile path)) fun answer s =>
          SoundStep s (.removeFile path) answer ∧ I s :=
        TryTriple.perform hk.stable hk.respected fun s answer s' h hstep =>
          ⟨hstep.1,hk.calm s (.removeFile path) answer s' rfl h hstep⟩
      refine TryTriple.bind hremove fun answer => ?_
      cases answer with
      | ok _ => exact ih.pre fun _ h => h.2
      | error error =>
        exact iteInduction (motive := fun p => Runs env _ p _) (fun _ => ih.pre fun _ h => h.2)
          fun hne => TryTriple.throw fun _ h => hne h.1

theorem modifySummary_runs (f : RootSyncSummary → RootSyncSummary) :
    Runs env I (SyncEngine.modifySummary f) fun _ => I :=
  calm_runs hk fun _ => rfl

theorem reporting_runs : SyncEngine.Reporting fun ⦃α⦄ (p : Engine α) =>
    KeepsOk (env.TraceStep SoundStep) env.TraceDrift Respected I p where
  toComposable := composable_keepsOk
  report _ := state_runs hk _
  readMemory := calm_runs hk rfl
  modifySummary f _ := modifySummary_runs hk f
  isCancelled := calm_runs hk rfl

theorem quiet_runs (runId : Int) (baseSummary : SyncRunSummary) :
    SyncEngine.Quiet runId baseSummary fun ⦃α⦄ (p : Engine α) =>
      KeepsOk (env.TraceStep SoundStep) env.TraceDrift Respected I p where
  toReporting := reporting_runs hk
  state _ := state_runs hk _
  persistRootProgress := TryTriple.bind (calm_runs hk rfl) fun _ => state_runs hk _
  cleanupStagingFiles := cleanup_runs hk
  fileMetadata _ := calm_runs hk rfl

end Runs

/-- Entries that no missing-path check misses. -/
def Present (disk : LocalTree) (rootPath localPath : LocalPath) : Prop :=
  disk.isDir localPath = true ∨
    ∃ parent, parent? localPath = some parent ∧ (parent = rootPath ∨ disk.pathExists parent = true)

/-- The plan of the root's scan is set, and the report is as it was. -/
def Planned (plan : LiveScanPlan) (report : SyncRunReport) (memory : SyncMemory) : Prop :=
  memory.livePlan = some plan ∧ memory.report = report

section Phases

variable {env : Environment ρ} {B : Traced ρ SyncMemory → Prop} (hb : Base env disk B)
  {plan : LiveScanPlan} {report : SyncRunReport}

theorem pathExists_of_isDir {disk : LocalTree} {path : LocalPath}
    (h : disk.isDir path = true) : disk.pathExists path = true := by
  unfold LocalTree.isDir at h
  unfold LocalTree.pathExists
  rw [Bool.or_eq_true] at h ⊢
  refine h.imp_right fun hany => ?_
  cases hitem : disk.item? path with
  | none => simp [hitem] at hany
  | some item => rfl

include hb

theorem kept_planned : Kept env disk (On B (Planned plan report)) :=
  hb.kept fun _ _ h => h

theorem livePlan_runs : Runs env (On B (Planned plan report)) SyncEngine.livePlan
    fun found s => found = plan ∧ On B (Planned plan report) s := by
  refine TryTriple.bind (memory_runs (kept_planned hb)) fun memory => TryTriple.pure fun s h => ⟨?_,h.2⟩
  have hplan : memory.livePlan = some plan := h.1 ▸ h.2.2.1
  rw [hplan]
  rfl

theorem nearestMissingLoop_runs {rootPath candidate : LocalPath} (fuel : Nat)
    (h : candidate = rootPath ∨ disk.pathExists candidate = true) :
    Runs env (On B (Planned plan report))
      (nearestMissingLoop (m := Engine) (fun path => SyncEngine.perform (.pathExists path)) rootPath
        fuel candidate none)
      fun found s => found = none ∧ On B (Planned plan report) s := by
  cases fuel with
  | zero => exact TryTriple.pure fun _ h => ⟨rfl,h⟩
  | succ fuel =>
    rw [nearestMissingLoop]
    refine iteInduction (motive := fun p => Runs env _ p _)
      (fun _ => TryTriple.pure fun _ h => ⟨rfl,h⟩) fun hne => ?_
    refine TryTriple.bind (pathExists_runs (kept_planned hb) candidate) fun found => ?_
    refine iteInduction (motive := fun p => Runs env _ p _)
      (fun _ => TryTriple.pure fun _ h => ⟨rfl,h.2⟩) fun hf => ?_
    have hexists := h.resolve_left hne
    exact TryTriple.of_pure (fun s hs => hs.1) fun he => absurd (he.trans hexists) hf

/-- An entry that is there is not found missing. -/
theorem register_runs {localPath : LocalPath} (hp : Present disk plan.rootLocalPath localPath)
    (relativePath remotePath : Str) :
    Runs env (On B (Planned plan report))
      (SyncEngine.registerMissingLocalPath localPath relativePath remotePath)
      fun found s => found = none ∧ On B (Planned plan report) s := by
  have hnearest : Runs env (On B (Planned plan report))
      (nearestMissingDirectory (m := Engine) (fun path => SyncEngine.perform (.isDir path))
        (fun path => SyncEngine.perform (.pathExists path)) plan.rootLocalPath localPath)
      fun found s => found = none ∧ On B (Planned plan report) s := by
    refine TryTriple.bind (isDir_runs (kept_planned hb) localPath) fun isDir => ?_
    refine TryTriple.of_pure (fun s hs => hs.1) fun hisDir => ?_
    refine iteInduction (motive := fun p => Runs env _ p _) (fun hd => ?_) fun hd => ?_
    · exact (nearestMissingLoop_runs hb _ (Or.inr (pathExists_of_isDir
        (hisDir ▸ hd)))).pre fun _ h => h.2
    · obtain ⟨parent,hparent,hthere⟩ := hp.resolve_left fun h => hd (hisDir.trans h)
      rw [hparent]
      exact (nearestMissingLoop_runs hb _ hthere).pre fun _ h => h.2
  have hset : Runs env (On B (Planned plan report)) (SyncEngine.setLivePlan plan)
      fun _ => On B (Planned plan report) := by
    refine TryTriple.perform (kept_planned hb).stable (kept_planned hb).respected fun s _ s' h hstep => ?_
    refine ⟨hb.mute _ _ _ _ rfl h.1 hstep,?_⟩
    rw [show s'.world = { s.world with
      memory := { s.world.memory with livePlan := some plan } } from hstep.2.1]
    exact ⟨rfl,h.2.2⟩
  refine TryTriple.bind (livePlan_runs hb) fun found => ?_
  refine TryTriple.of_pure (fun s hs => hs.1) ?_
  rintro rfl
  have hregister : Runs env (On B (Planned found report))
      (found.registerMissingLocalPath (m := Engine) (fun path => SyncEngine.perform (.isDir path))
        (fun path => SyncEngine.perform (.pathExists path)) localPath relativePath remotePath)
      fun result s => result = (found,none) ∧ On B (Planned found report) s := by
    have hdetect : Runs env (On B (Planned found report))
        (detectDeletedLocalSubtree (m := Engine) (fun path => SyncEngine.perform (.isDir path))
          (fun path => SyncEngine.perform (.pathExists path)) found.rootId found.rootLocalPath
          localPath relativePath remotePath)
        fun subtree s => subtree = none ∧ On B (Planned found report) s := by
      refine TryTriple.bind hnearest fun missing => TryTriple.of_pure (fun s hs => hs.1) ?_
      rintro rfl
      exact TryTriple.pure fun _ h => ⟨rfl,h.2⟩
    refine TryTriple.bind hdetect fun subtree => TryTriple.of_pure (fun s hs => hs.1) ?_
    rintro rfl
    exact TryTriple.pure fun _ h => ⟨rfl,h.2⟩
  refine TryTriple.bind (hregister.pre fun _ h => h.2) fun result => ?_
  refine TryTriple.of_pure (fun s hs => hs.1) ?_
  rintro rfl
  exact TryTriple.bind (hset.pre fun _ h => h.2) fun _ => TryTriple.pure fun _ h => ⟨rfl,h⟩

variable (runId : Int) (baseSummary : SyncRunSummary)

theorem skipMissing_runs {localPath : LocalPath} (hp : Present disk plan.rootLocalPath localPath)
    (relativePath remotePath : Str) :
    Runs env (On B (Planned plan report))
      (SyncEngine.skipMissing runId baseSummary localPath relativePath remotePath)
      fun skipped s => skipped = false ∧ On B (Planned plan report) s := by
  refine TryTriple.bind (register_runs hb hp relativePath remotePath) fun found => ?_
  refine TryTriple.of_pure (fun s hs => hs.1) ?_
  rintro rfl
  exact TryTriple.pure fun _ h => ⟨rfl,h.2⟩

/-- A batch takes the first entries that are pending. -/
theorem nextCreateBatch_runs (hplan : plan.deletedSubtrees = []) (slots : Nat)
    (pending : List LocalDirectoryEntry)
    (hpending : ∀ d ∈ pending, Present disk plan.rootLocalPath d.localPath) :
    Runs env (On B (Planned plan report))
      (SyncEngine.nextCreateBatch runId baseSummary slots pending)
      fun result s => (result.1 ++ result.2 = pending ∧
        (0 < slots → pending ≠ [] → result.1 ≠ [])) ∧
        On B (Planned plan report) s := by
  induction pending generalizing slots with
  | nil =>
    cases slots <;> exact TryTriple.pure fun _ h => ⟨⟨rfl,fun _ hne => absurd rfl hne⟩,h⟩
  | cons directory pending ih =>
    cases slots with
    | zero => exact TryTriple.pure fun _ h => ⟨⟨rfl,fun h => absurd h (Nat.lt_irrefl 0)⟩,h⟩
    | succ slots =>
      unfold SyncEngine.nextCreateBatch
      refine TryTriple.bind (livePlan_runs hb) fun found => TryTriple.of_pure (fun s hs => hs.1) ?_
      rintro rfl
      have hlive : found.isDeletedRelativePath directory.relativePath = false := by
        simp [LiveScanPlan.isDeletedRelativePath,hplan]
      rw [if_neg (by simp [hlive])]
      refine TryTriple.bind ((skipMissing_runs hb runId baseSummary (hpending directory (by simp))
        _ _).pre fun _ h => h.2) fun skipped => TryTriple.of_pure (fun s hs => hs.1) ?_
      rintro rfl
      refine TryTriple.bind ((ih slots fun d hd => hpending d (by simp [hd])).pre fun _ h => h.2)
        fun result => TryTriple.pure fun _ h => ⟨⟨?_,fun _ _ => by simp⟩,h.2⟩
      rw [List.cons_append,h.1.1]

end Phases

section Tasks

variable {env : Environment ρ} (hu : Undisturbed env) {kind : Task → Prop} {count : Nat}
  {φ : SyncMemory → Prop} {plan : LiveScanPlan} {report : SyncRunReport}

/-- At work, with a crew of tasks. -/
def Crewed (disk : LocalTree) (calls : List ClientCall) (settled : List Str) (kind : Task → Prop)
    (count : Nat) (s : Traced ρ SyncMemory) : Prop :=
  Working disk calls settled s ∧ Crew kind count s

/-- At work, with all tasks joined. -/
def Alone (disk : LocalTree) (calls : List ClientCall) (settled : List Str)
    (s : Traced ρ SyncMemory) : Prop :=
  Working disk calls settled s ∧ s.world.tasks = []

theorem Alone.crewed (h : Alone disk calls settled s) : Crewed disk calls settled kind 0 s :=
  ⟨h.1,crew_nil h.2⟩

theorem Crewed.alone (h : Crewed disk calls settled kind 0 s) : Alone disk calls settled s :=
  ⟨h.1,h.2.tasks_nil⟩

include hu

theorem base_crewed : Base env disk (Crewed disk calls settled kind count) where
  stable := (stable_working hu).and stable_crew
  steady _ h := h.1.toSteady
  respected _ h := h.1.respected
  mute _ _ _ _ he h hstep :=
    ⟨h.1.mute he hstep,h.2.of_tasks (hstep.2.1.tasks_eq (Mute.onTasks he))⟩

theorem base_alone : Base env disk (Alone disk calls settled) := by
  have hb : Base env disk (Crewed disk calls settled Task.IsCreate 0) := base_crewed hu
  exact {
    stable := fun s s' h hdrift => (hb.stable s s' h.crewed hdrift).alone
    steady := fun _ h => h.1.toSteady
    respected := fun _ h => h.1.respected
    mute := fun s e answer s' he h hstep => (hb.mute s e answer s' he h.crewed hstep).alone }

theorem spawn_runs (hφ : Unsummarized φ) {task : Task} (htask : kind task) :
    Runs env (On (Crewed disk calls settled kind count) φ) (SyncEngine.perform (.spawn task))
      fun _ => On (Crewed disk (calls ++ [task.call]) settled kind (count+1)) φ := by
  have hk : Kept env disk (On (Crewed disk calls settled kind count) φ) := (base_crewed hu).kept hφ
  refine TryTriple.perform hk.stable hk.respected fun s _ s' h hstep => ?_
  obtain ⟨_,hperform,htrace⟩ := hstep
  have hworld : s'.world = { s.world with tasks := s.world.tasks ++ [{ task }] } := hperform
  refine ⟨⟨?_,?_⟩,?_⟩
  · refine h.1.1.append (h.1.1.toSteady.of_perform hperform) htrace ?_ rfl
    have hissued := h.1.1.issued.append_right [task.call]
    unfold issued at hissued ⊢
    simpa [hworld,htrace,List.filterMap_cons,Happening.taskCall] using hissued
  · have hcrew := h.1.2
    refine ⟨fun running hr => ?_,fun running hr o ho => ?_,?_⟩
    · rw [hworld] at hr
      rcases List.mem_append.mp hr with hr | hr
      · exact hcrew.kind running hr
      · rw [List.mem_singleton.mp hr]
        exact htask
    · rw [hworld] at hr
      rcases List.mem_append.mp hr with hr | hr
      · exact hcrew.yields running hr o ho
      · rw [List.mem_singleton.mp hr] at ho
        cases ho
    · rw [hworld]
      simpa using hcrew.length
  · rw [hworld]
    exact h.2

/-- What a join may find: nothing is left, a stop, or one task less. -/
theorem join_runs (hφ : Unsummarized φ) :
    Runs env (On (Crewed disk calls settled kind (count+1)) φ) (SyncEngine.perform .joinNext)
      fun joined s => match joined with
        | none => On (Alone disk calls settled) φ s
        | some outcome => (∃ task : Task, kind task ∧ task.Yields outcome) ∧
          if (Happening.step (μ := SyncMemory) .joinNext (some outcome)).isStop then
            On (Halting disk) φ s
          else On (Crewed disk calls settled kind count) φ s := by
  have hk : Kept env disk (On (Crewed disk calls settled kind (count+1)) φ) :=
    (base_crewed hu).kept hφ
  refine TryTriple.perform hk.stable hk.respected fun s joined s' h hstep => ?_
  obtain ⟨_,hperform,htrace⟩ := hstep
  have hsteady := h.1.1.toSteady.of_perform hperform
  have hmemory : φ s'.world.memory := by
    rw [hperform.memory_eq (by simp)]
    exact h.2
  rcases hperform with ⟨rfl,ht,hw⟩ | ⟨before,task,outcome,after,rfl,ht,hw⟩
  · refine ⟨⟨h.1.1.append hsteady htrace ?_ rfl,by rw [hw]; exact ht⟩,hmemory⟩
    have hissued := h.1.1.issued
    unfold issued at hissued ⊢
    rw [hw,htrace]
    simpa [List.filterMap_cons,Happening.taskCall] using hissued
  · have hmem : ({ task, outcome := some outcome } : RunningTask) ∈ s.world.tasks := by simp [ht]
    refine ⟨⟨task,h.1.2.kind _ hmem,h.1.2.yields _ hmem outcome rfl⟩,?_⟩
    split
    · rename_i hstop
      exact ⟨⟨hsteady,by simp [htrace,hstop],by
        rw [htrace]
        exact stopsRespected_append h.1.1.respected fun _ => h.1.1.unstopped⟩,hmemory⟩
    · rename_i hstop
      refine ⟨⟨h.1.1.append hsteady htrace ?_ (by simpa using hstop),?_⟩,hmemory⟩
      · have hissued := h.1.1.issued
        unfold issued at hissued ⊢
        rw [hw,htrace]
        simpa [List.filterMap_cons,Happening.taskCall,ht] using hissued
      · have hcrew := h.1.2
        refine ⟨fun running hr => ?_,fun running hr => ?_,?_⟩
        · rw [hw] at hr
          exact hcrew.kind running (by rw [ht]; simp only [List.mem_append,List.mem_cons] at hr ⊢; tauto)
        · rw [hw] at hr
          exact hcrew.yields running (by rw [ht]; simp only [List.mem_append,List.mem_cons] at hr ⊢; tauto)
        · have hlength := hcrew.length
          rw [ht] at hlength
          rw [hw]
          simp only [List.length_append,List.length_cons] at hlength ⊢
          omega

end Tasks

/-- Halting, with the failure noted in the summary of the root. -/
def Halted (disk : LocalTree) (s : Traced ρ SyncMemory) : Prop :=
  Halting disk s ∧ s.world.memory.rootSummary.status = rootStatusFailed

/-- A root between two phases of its plan. -/
abbrev Busy (disk : LocalTree) (plan : LiveScanPlan) (report : SyncRunReport)
    (calls : List ClientCall) (settled : List Str) : Traced ρ SyncMemory → Prop :=
  On (Alone disk calls settled) (Planned plan report)

theorem unsummarized_planned {plan : LiveScanPlan} {report : SyncRunReport} :
    Unsummarized (Planned plan report) := fun _ _ h => h

section Stops

variable {env : Environment ρ} (hu : Undisturbed env)

theorem Halting.not_mute (h : Halting disk s) {e : Effect SyncMemory} {answer : e.Answer}
    (he : (Happening.step e answer).issues = false)
    (hstep : env.TraceStep SoundStep s e answer s') : Halting disk s' :=
  h.append (h.toSteady.of_perform hstep.2.1) hstep.2.2 he

include hu

theorem stopRoot_runs (text : Str) :
    Runs env (Halting disk) (SyncEngine.stopRoot text) fun _ => Halted disk := by
  refine TryTriple.perform (stable_halting hu) (fun _ h => h.respected) fun s _ s' h hstep => ?_
  refine ⟨h.not_mute rfl hstep,?_⟩
  rw [hstep.2.1.memory_update]

theorem stable_halted : Stable env.TraceDrift (Halted (ρ := ρ) disk) := fun s s' h hdrift =>
  ⟨stable_halting hu s s' h.1 hdrift,by rw [hdrift.memory_eq]; exact h.2⟩

/-- Steps after a stop that issue nothing and leave the memory alone. -/
theorem halted_answers {e : Effect SyncMemory} {φ : e.Answer → Prop}
    (he : ∀ answer, (Happening.step e answer).issues = false) (hm : ∀ f, e ≠ .updateMemory f)
    (hφ : ∀ s answer s', Halted disk s → env.TraceStep SoundStep s e answer s' → φ answer) :
    Runs env (Halted disk) (SyncEngine.perform e)
      fun answer s => φ answer ∧ Halted disk s := by
  refine TryTriple.perform (stable_halted hu) (fun _ h => h.1.respected)
    fun s answer s' h hstep => ⟨hφ s answer s' h hstep,h.1.not_mute (he answer) hstep,?_⟩
  rw [hstep.2.1.memory_eq hm]
  exact h.2

theorem halted_runs {e : Effect SyncMemory}
    (he : ∀ answer, (Happening.step e answer).issues = false) (hm : ∀ f, e ≠ .updateMemory f) :
    Runs env (Halted disk) (SyncEngine.perform e) fun _ => Halted disk :=
  (halted_answers hu he hm fun _ _ _ _ _ => trivial).post fun _ _ h => h.2

theorem halted_state (call : StateCall) :
    Runs env (Halted disk) (SyncEngine.state call) fun _ => Halted disk := by
  refine TryTriple.bind (halted_answers hu (fun _ => rfl) (by simp)
    fun _ _ _ _ hstep => SoundStep.isOk hstep.1) fun answer => ?_
  cases answer with
  | ok result => exact TryTriple.pure fun _ h => h.2
  | error error => exact TryTriple.throw fun _ h => by simp [Except.isOk,Except.toBool] at h

theorem halted_isCancelled : Runs env (Halted disk) SyncEngine.isCancelled
    fun cancelled s => cancelled = false ∧ Halted disk s :=
  halted_answers hu (fun _ => rfl) (by simp) fun _ _ _ h hstep => hstep.2.1.1.trans h.1.running

theorem halted_memory : Runs env (Halted disk) SyncEngine.memory
    fun memory s => memory.rootSummary.status = rootStatusFailed ∧ Halted disk s :=
  halted_answers hu (fun _ => rfl) (by simp) fun _ _ _ h hstep => by
    rw [hstep.2.1.1]
    exact h.2

variable (root : SyncRootConfig) (runId : Int) (baseSummary : SyncRunSummary)

theorem recordClientFailure_stops {error : YandexDiskError} (h : isStopError error.kind = true)
    (operationId : Int) (operation : Str) (localPath : Option Str) (remotePath : Str) :
    Runs env (Halting disk)
      (SyncEngine.recordClientFailure root runId baseSummary operationId operation localPath
        remotePath error)
      fun stop s => stop = true ∧ Halted disk s := by
  refine TryTriple.bind ((quiet_runs (kept_halting hu) runId baseSummary).recordOperationFailure
    operationId _) fun _ => ?_
  rw [if_pos h]
  exact TryTriple.bind (stopRoot_runs hu _) fun _ => TryTriple.pure fun _ h => ⟨rfl,h⟩

omit hu in
theorem recordClientFailure_goes_on {I : Traced ρ SyncMemory → Prop} (hk : Kept env disk I)
    {error : YandexDiskError} (h : isStopError error.kind = false) (operationId : Int)
    (operation : Str) (localPath : Option Str) (remotePath : Str) :
    Runs env I
      (SyncEngine.recordClientFailure root runId baseSummary operationId operation localPath
        remotePath error)
      fun stop s => stop = false ∧ I s := by
  refine TryTriple.bind ((quiet_runs hk runId baseSummary).recordOperationFailure
    operationId _) fun _ => ?_
  rw [if_neg (by simp [h])]
  exact TryTriple.pure fun _ h => ⟨rfl,h⟩

end Stops

section Creates

variable {env : Environment ρ} (hu : Undisturbed env) {plan : LiveScanPlan}
  {report : SyncRunReport} (root : SyncRootConfig) (runId : Int) (baseSummary : SyncRunSummary)

/-- After a phase: stopped, or through with the calls of the phase. -/
def Through (disk : LocalTree) (plan : LiveScanPlan) (report : SyncRunReport)
    (calls : List ClientCall) (settled : List Str) (stop : Bool) (s : Traced ρ SyncMemory) :
    Prop :=
  if stop then Halted disk s else Busy disk plan report calls settled s

def createCalls (directories : List LocalDirectoryEntry) : List ClientCall :=
  directories.map fun directory => .createDirectory directory.remotePath

include hu

theorem spawnCreates_runs (batch : List LocalDirectoryEntry) (count : Nat) :
    Runs env (On (Crewed disk calls settled Task.IsCreate count) (Planned plan report))
      (SyncEngine.spawnCreates runId batch)
      fun _ => On (Crewed disk (calls ++ createCalls batch) settled Task.IsCreate (count+batch.length))
        (Planned plan report) := by
  induction batch generalizing calls count with
  | nil => exact TryTriple.pure fun _ h => by simpa [createCalls] using h
  | cons directory batch ih =>
    refine TryTriple.bind (state_runs ((base_crewed hu).kept unsummarized_planned) _)
      fun operationId => TryTriple.bind (spawn_runs hu unsummarized_planned trivial) fun _ => ?_
    refine (ih (count+1)).post fun _ s h => ?_
    rw [show count+(directory :: batch).length = count+1+batch.length by simp; omega]
    simpa [createCalls,Task.call] using h

theorem joinCreates_runs (fuel : Nat) :
    Runs env (On (Crewed disk calls settled Task.IsCreate fuel) (Planned plan report))
      (SyncEngine.joinCreates root runId baseSummary fuel)
      (Through disk plan report calls settled) := by
  induction fuel with
  | zero => exact TryTriple.pure fun _ h => ⟨h.1.alone,h.2⟩
  | succ fuel ih =>
    have hk : Kept env disk (On (Crewed disk calls settled Task.IsCreate fuel)
        (Planned plan report)) := (base_crewed hu).kept unsummarized_planned
    refine TryTriple.bind (join_runs hu unsummarized_planned) fun joined => ?_
    match joined with
    | none => exact TryTriple.pure fun _ h => h
    | some (.uploaded outcome) =>
      refine TryTriple.of_pure (fun s h => h.1) fun hfalse => ?_
      obtain ⟨task,hcreate,hyields⟩ := hfalse
      match task with
      | .createDirectory .. =>
        obtain ⟨_,he⟩ := hyields
        cases he
      | .upload .. => exact hcreate.elim
    | some (.created directory operationId (.ok _)) =>
      refine TryTriple.bind (TryTriple.pre ?_ fun s h => h.2) fun _ => ih
      exact TryTriple.bind (state_runs hk _) fun _ => TryTriple.bind (state_runs hk _) fun _ =>
        state_runs hk _
    | some (.created directory operationId (.error error)) =>
      by_cases hstop : isStopError error.kind = true
      · have hfailure : Runs env (Halting disk) _ _ := recordClientFailure_stops hu root runId
          baseSummary hstop operationId "create_directory".toList
          (some (pathToStableString directory.localPath)) directory.remotePath
        refine TryTriple.bind (hfailure.pre fun s h => ?_) fun stop =>
          TryTriple.of_pure (fun s hs => hs.1) ?_
        · have hhalting := h.2
          split at hhalting
          · exact hhalting.1
          · rename_i hnot
            exact absurd hstop hnot
        · rintro rfl
          exact TryTriple.bind ((halted_runs hu (fun _ => rfl) (by simp)).pre fun _ h => h.2)
            fun _ => TryTriple.pure fun _ h => h
      · have hfailure := recordClientFailure_goes_on root runId baseSummary hk
          (by simpa using hstop) operationId "create_directory".toList
          (some (pathToStableString directory.localPath)) directory.remotePath
        refine TryTriple.bind (hfailure.pre fun s h => ?_) fun stop =>
          TryTriple.of_pure (fun s hs => hs.1) ?_
        · have hcrewed := h.2
          split at hcrewed
          · rename_i hyes
            exact absurd hyes hstop
          · exact hcrewed
        · rintro rfl
          exact ih.pre fun _ h => h.2

omit hu in
theorem createCalls_append (a b : List LocalDirectoryEntry) :
    createCalls (a ++ b) = createCalls a ++ createCalls b := List.map_append

omit hu in
/-- A phase that stops ends there; otherwise the next one goes on. -/
theorem Through.bind {α : Type} {p q : Engine α} {stop : Bool}
    {Q : α → Traced ρ SyncMemory → Prop} (hstop : stop = true → Runs env (Halted disk) p Q)
    (hgo : stop = false → Runs env (Busy disk plan report calls settled) q Q) :
    Runs env (Through disk plan report calls settled stop) (if stop then p else q) Q := by
  cases stop with
  | true => exact hstop rfl
  | false => exact hgo rfl

theorem createLevel_runs (hplan : plan.deletedSubtrees = []) {concurrency : Nat}
    (hc : 0 < concurrency) (fuel : Nat) (pending : List LocalDirectoryEntry)
    (hfuel : pending.length ≤ fuel)
    (hpending : ∀ d ∈ pending, Present disk plan.rootLocalPath d.localPath) :
    Runs env (Busy disk plan report calls settled)
      (SyncEngine.createLevel root runId baseSummary concurrency fuel pending)
      (Through disk plan report (calls ++ createCalls pending) settled) := by
  induction fuel generalizing pending calls with
  | zero =>
    rw [List.eq_nil_of_length_eq_zero (Nat.le_zero.mp hfuel)]
    exact TryTriple.pure fun _ h => by simpa [Through,createCalls] using h
  | succ fuel ih =>
    have hk : Kept env disk (Busy disk plan report calls settled) :=
      (base_alone hu).kept unsummarized_planned
    unfold SyncEngine.createLevel
    refine iteInduction (motive := fun p => Runs env _ p _) (fun hempty => ?_) fun hne => ?_
    · rw [List.isEmpty_iff.mp hempty]
      exact TryTriple.pure fun _ h => by simpa [Through,createCalls] using h
    have hne' : pending ≠ [] := fun h => hne (by simp [h])
    refine TryTriple.bind (isCancelled_runs hk) fun cancelled => TryTriple.of_pure (fun s h => h.1) ?_
    rintro rfl
    refine TryTriple.bind ((nextCreateBatch_runs (base_alone hu) runId baseSummary hplan concurrency
      pending hpending).pre fun _ h => h.2) fun next => TryTriple.of_pure (fun s h => h.1) ?_
    rintro ⟨happ,hbatch⟩
    have hbatch' := hbatch hc hne'
    rw [if_neg (by simpa using hbatch')]
    refine TryTriple.bind ((spawnCreates_runs hu runId next.1 0).pre fun s h =>
      ⟨h.2.1.crewed,h.2.2⟩) fun _ => ?_
    refine TryTriple.bind ((joinCreates_runs hu root runId baseSummary (next.1.length+1)).pre
      fun s h => ⟨⟨h.1.1,h.1.2.mono (by omega)⟩,h.2⟩) fun stop => ?_
    refine Through.bind (fun hs => TryTriple.pure fun s h => ?_) fun _ => ?_
    · exact h
    · have hlength : next.1.length+next.2.length = pending.length := by
        rw [← happ,List.length_append]
      have hpos := List.length_pos_iff.mpr hbatch'
      refine (ih next.2 (by omega) fun d hd => hpending d ?_).post fun b s h => ?_
      · rw [← happ]
        exact List.mem_append_right _ hd
      · rw [← happ,createCalls_append,← List.append_assoc]
        exact h

theorem createLevels_runs (hplan : plan.deletedSubtrees = []) {concurrency : Nat}
    (hc : 0 < concurrency) (levels : List (List LocalDirectoryEntry))
    (hpending : ∀ d ∈ levels.flatten, Present disk plan.rootLocalPath d.localPath) :
    Runs env (Busy disk plan report calls settled)
      (SyncEngine.createLevels root runId baseSummary concurrency levels)
      (Through disk plan report (calls ++ createCalls levels.flatten) settled) := by
  induction levels generalizing calls with
  | nil => exact TryTriple.pure fun _ h => by simpa [Through,createCalls] using h
  | cons level levels ih =>
    refine TryTriple.bind (createLevel_runs hu root runId baseSummary hplan hc _ level le_rfl
      fun d hd => hpending d (by simp [hd])) fun stop => ?_
    refine Through.bind (fun hs => TryTriple.pure fun s h => h) fun _ => ?_
    refine (ih fun d hd => hpending d ?_).post fun b s h => ?_
    · rw [List.flatten_cons]
      exact List.mem_append_right _ hd
    · rw [List.flatten_cons,createCalls_append,← List.append_assoc]
      exact h

omit hu in
theorem Working.perm {calls' : List ClientCall} (h : Working disk calls settled s)
    (hp : calls.Perm calls') : Working disk calls' settled s :=
  { h with issued := h.issued.trans hp }

theorem applyCreateDirectories_runs (hplan : plan.deletedSubtrees = []) (config : AppConfig)
    (rootPlan : RootPlan)
    (hpending : ∀ d ∈ rootPlan.createDirectories, Present disk plan.rootLocalPath d.localPath) :
    Runs env (Busy disk plan report calls settled)
      (SyncEngine.applyCreateDirectories config root runId baseSummary rootPlan)
      (Through disk plan report (calls ++ createCalls rootPlan.createDirectories) settled) := by
  refine TryTriple.bind (livePlan_runs (base_alone hu)) fun found => TryTriple.of_pure (fun s h => h.1) ?_
  rintro rfl
  have hall : rootPlan.createDirectories.filter (fun directory =>
      !found.isDeletedRelativePath directory.relativePath) = rootPlan.createDirectories := by
    rw [List.filter_eq_self]
    intro d _
    simp [LiveScanPlan.isDeletedRelativePath,hplan]
  have hperm : (byDepth rootPlan.createDirectories).flatten.Perm rootPlan.createDirectories := by
    unfold byDepth
    rw [List.flatten_splitBy]
    exact sortByKey_perm _ _
  dsimp only
  rw [hall]
  refine ((createLevels_runs hu root runId baseSummary hplan (by omega) _ fun d hd =>
    hpending d (hperm.mem_iff.mp hd)).pre fun _ h => h.2).post fun stop s h => ?_
  cases stop with
  | true => exact h
  | false => exact ⟨⟨h.1.1.perm (List.Perm.append_left _ (hperm.map _)),h.1.2⟩,h.2⟩

end Creates

section Uploads

variable {env : Environment ρ} (hu : Undisturbed env) {plan : LiveScanPlan}
  {report : SyncRunReport} (root : SyncRootConfig) (runId : Int) (baseSummary : SyncRunSummary)

def uploadCalls (uploads : List (LocalFileEntry × Bool)) : List ClientCall :=
  uploads.map fun upload => .uploadSource upload.1.remotePath upload.1.uploadSource

theorem uploadCalls_append (a b : List (LocalFileEntry × Bool)) :
    uploadCalls (a ++ b) = uploadCalls a ++ uploadCalls b := List.map_append

/-- An upload of a file that no missing-path check misses. -/
def PresentUpload (disk : LocalTree) (rootPath : LocalPath) : Task → Prop
  | .createDirectory .. => False
  | .upload _ file _ _ => Present disk rootPath file.localPath

include hu

theorem spawnUploads_runs (hplan : plan.deletedSubtrees = [])
    (batch : List (LocalFileEntry × Bool))
    (hbatch : ∀ u ∈ batch, Present disk plan.rootLocalPath u.1.localPath) (count : Nat) :
    Runs env (On (Crewed disk calls settled (PresentUpload disk plan.rootLocalPath) count)
        (Planned plan report))
      (SyncEngine.spawnUploads runId baseSummary batch)
      fun _ => On (Crewed disk (calls ++ uploadCalls batch) settled
        (PresentUpload disk plan.rootLocalPath) (count+batch.length)) (Planned plan report) := by
  induction batch generalizing calls count with
  | nil => exact TryTriple.pure fun _ h => by simpa [uploadCalls] using h
  | cons upload batch ih =>
    have hb : Base env disk (Crewed disk calls settled (PresentUpload disk plan.rootLocalPath)
      count) := base_crewed hu
    have hthere := hbatch upload (by simp)
    unfold SyncEngine.spawnUploads
    refine TryTriple.bind (livePlan_runs hb) fun found => TryTriple.of_pure (fun s h => h.1) ?_
    rintro rfl
    have hlive : found.isDeletedRelativePath upload.1.relativePath = false := by
      simp [LiveScanPlan.isDeletedRelativePath,hplan]
    rw [if_neg (by simp [hlive])]
    refine TryTriple.bind ((skipMissing_runs hb runId baseSummary hthere _ _).pre fun _ h => h.2)
      fun skipped => TryTriple.of_pure (fun s h => h.1) ?_
    rintro rfl
    refine TryTriple.bind ((state_runs (hb.kept unsummarized_planned) _).pre fun _ h => h.2)
      fun operationId => TryTriple.bind (spawn_runs hu unsummarized_planned hthere) fun _ => ?_
    refine (ih (fun u hu => hbatch u (by simp [hu])) (count+1)).post fun _ s h => ?_
    rw [show count+(upload :: batch).length = count+1+batch.length by simp; omega]
    simpa [uploadCalls,Task.call] using h

omit hu in
theorem recordUploaded_runs {I : Traced ρ SyncMemory → Prop} (hk : Kept env disk I)
    (operationId : Int) (file : LocalFileEntry) (isUpdate : Bool) :
    Runs env I (SyncEngine.recordUploaded runId baseSummary operationId file isUpdate)
      fun _ => I := by
  refine TryTriple.bind (state_runs hk _) fun _ => ?_
  have hstatus : Runs env I (SyncEngine.fileStatusAfterUpload file) fun _ => I := by
    refine TryTriple.bind (calm_runs hk (e := .fileMetadata file.localPath) rfl) fun found => ?_
    cases found with
    | none => exact TryTriple.pure fun _ h => h
    | some found =>
      exact iteInduction (motive := fun p => Runs env _ p _) (fun _ => TryTriple.pure fun _ h => h)
        fun _ => TryTriple.pure fun _ h => h
  exact TryTriple.bind hstatus fun _ => TryTriple.bind (state_runs hk _) fun _ =>
    TryTriple.bind (state_runs hk _) fun _ => TryTriple.bind (modifySummary_runs hk _)
      fun _ => (quiet_runs hk runId baseSummary).persistRootProgress

omit hu in
/-- A failed upload that does not stop the run. -/
theorem recordUploadFailure_goes_on {B : Traced ρ SyncMemory → Prop} (hb : Base env disk B)
    {outcome : UploadTaskOutcome} {failure : UploadTaskFailure}
    (hthere : Present disk plan.rootLocalPath outcome.file.localPath)
    (hgo : (failure.shouldStop && failure.skipReasonCode.isNone) = false) :
    Runs env (On B (Planned plan report))
      (SyncEngine.recordUploadFailure root runId baseSummary outcome failure)
      fun stop s => stop = false ∧ On B (Planned plan report) s := by
  have hk : Kept env disk (On B (Planned plan report)) := kept_planned hb
  refine TryTriple.bind (register_runs hb hthere _ _) fun found => TryTriple.of_pure (fun s h => h.1) ?_
  rintro rfl
  refine TryTriple.pre ?_ fun s h => h.2
  dsimp only
  cases hskip : failure.skipReasonCode with
  | some reasonCode =>
    refine TryTriple.bind ?_ fun _ => TryTriple.pure fun _ h => ⟨rfl,h⟩
    exact TryTriple.bind (state_runs hk _) fun _ => TryTriple.bind (state_runs hk _) fun _ =>
      TryTriple.bind (state_runs hk _) fun _ => TryTriple.bind (modifySummary_runs hk _)
        fun _ => (quiet_runs hk runId baseSummary).persistRootProgress
  | none =>
    have hstop : failure.shouldStop = false := by simpa [hskip] using hgo
    refine TryTriple.bind ((quiet_runs hk runId baseSummary).recordOperationFailure
      outcome.operationId _) fun _ => ?_
    rw [if_neg (by simp [hstop])]
    exact TryTriple.pure fun _ h => ⟨rfl,h⟩

theorem recordUploadFailure_stops {outcome : UploadTaskOutcome} {failure : UploadTaskFailure}
    (hthere : Present disk plan.rootLocalPath outcome.file.localPath)
    (hstop : failure.shouldStop = true) (hskip : failure.skipReasonCode = none) :
    Runs env (On (Halting disk) (Planned plan report))
      (SyncEngine.recordUploadFailure root runId baseSummary outcome failure)
      fun stop s => stop = true ∧ Halted disk s := by
  refine TryTriple.bind (register_runs (base_halting hu) hthere _ _)
    fun found => TryTriple.of_pure (fun s h => h.1) ?_
  rintro rfl
  dsimp only
  rw [hskip]
  refine TryTriple.bind (((quiet_runs (kept_halting hu) runId baseSummary).recordOperationFailure
    outcome.operationId _).pre fun s h => h.2.1) fun _ => ?_
  rw [if_pos hstop]
  exact TryTriple.bind (stopRoot_runs hu _) fun _ => TryTriple.pure fun _ h => ⟨rfl,h⟩

theorem joinUploads_runs (fuel bytesUploaded : Nat) :
    Runs env (On (Crewed disk calls settled (PresentUpload disk plan.rootLocalPath) fuel)
        (Planned plan report))
      (SyncEngine.joinUploads root runId baseSummary fuel bytesUploaded)
      fun result => Through disk plan report calls settled result.shouldStop := by
  induction fuel generalizing bytesUploaded with
  | zero => exact TryTriple.pure fun _ h => ⟨h.1.alone,h.2⟩
  | succ fuel ih =>
    have hb : Base env disk (Crewed disk calls settled (PresentUpload disk plan.rootLocalPath)
      fuel) := base_crewed hu
    refine TryTriple.bind (join_runs hu unsummarized_planned) fun joined => ?_
    match joined with
    | none => exact TryTriple.pure fun _ h => h
    | some (.created ..) =>
      refine TryTriple.of_pure (fun s h => h.1) fun hfalse => ?_
      obtain ⟨task,hkind,hyields⟩ := hfalse
      match task with
      | .createDirectory .. => exact hkind.elim
      | .upload .. =>
        obtain ⟨_,he⟩ := hyields
        cases he
    | some (.uploaded outcome) =>
      refine TryTriple.of_pure (fun s h => h.1) fun htask => ?_
      have hthere : Present disk plan.rootLocalPath outcome.file.localPath := by
        obtain ⟨task,hkind,hyields⟩ := htask
        match task with
        | .createDirectory .. => exact hkind.elim
        | .upload operationId file isUpdate text =>
          obtain ⟨result,he⟩ := hyields
          cases he
          exact hkind
      obtain ⟨operationId,file,isUpdate,result⟩ := outcome
      cases result with
      | ok _ =>
        refine TryTriple.bind ?_ fun _ => ih _
        exact (recordUploaded_runs runId baseSummary (hb.kept unsummarized_planned) _ _ _).pre
          fun _ h => h.2
      | error failure =>
        by_cases hstop : (failure.shouldStop && failure.skipReasonCode.isNone) = true
        · have hboth : failure.shouldStop = true ∧ failure.skipReasonCode = none := by
            simpa using hstop
          have hfailure : Runs env (On (Halting disk) (Planned plan report)) _ _ :=
            recordUploadFailure_stops hu root runId baseSummary hthere hboth.1 hboth.2
          refine TryTriple.bind (hfailure.pre fun s h => ?_) fun stop =>
            TryTriple.of_pure (fun s h => h.1) ?_
          · have hhalting := h.2
            split at hhalting
            · exact hhalting
            · rename_i hnot
              exact absurd hstop hnot
          · rintro rfl
            exact TryTriple.bind ((halted_runs hu (fun _ => rfl) (by simp)).pre fun _ h => h.2)
              fun _ => TryTriple.pure fun _ h => h
        · have hgo : (failure.shouldStop && failure.skipReasonCode.isNone) = false := by
            rw [Bool.eq_false_iff]
            exact hstop
          have hfailure : Runs env (On _ (Planned plan report)) _ _ :=
            recordUploadFailure_goes_on root runId baseSummary hb hthere hgo
          refine TryTriple.bind (hfailure.pre fun s h => ?_) fun stop =>
            TryTriple.of_pure (fun s h => h.1) ?_
          · have hcrewed := h.2
            split at hcrewed
            · rename_i hyes
              exact absurd hyes hstop
            · exact hcrewed
          · rintro rfl
            exact (ih _).pre fun _ h => h.2

theorem applyUploads_runs (hplan : plan.deletedSubtrees = []) (config : AppConfig)
    (rootPlan : RootPlan)
    (hpending : ∀ u ∈ rootPlan.uploads, Present disk plan.rootLocalPath u.1.localPath) :
    Runs env (Busy disk plan report calls settled)
      (SyncEngine.applyUploads config root runId baseSummary rootPlan)
      fun result => Through disk plan report (calls ++ uploadCalls rootPlan.uploads) settled
        result.shouldStop := by
  unfold SyncEngine.applyUploads
  generalize hfuel : rootPlan.uploads.length = fuel
  generalize (0 : Nat) = bytesUploaded
  generalize rootPlan.uploads = pending at hpending hfuel ⊢
  replace hfuel := hfuel.le
  generalize hlimit : max config.sync.uploadConcurrency 1 = limit
  induction fuel generalizing pending bytesUploaded calls with
  | zero =>
    rw [List.eq_nil_of_length_eq_zero (Nat.le_zero.mp hfuel)]
    exact TryTriple.pure fun _ h => by simpa [Through,uploadCalls] using h
  | succ fuel ih =>
    have hk : Kept env disk (Busy disk plan report calls settled) :=
      (base_alone hu).kept unsummarized_planned
    unfold SyncEngine.uploadBatches
    refine iteInduction (motive := fun p => Runs env _ p _) (fun hempty => ?_) fun hne => ?_
    · rw [List.isEmpty_iff.mp hempty]
      exact TryTriple.pure fun _ h => by simpa [Through,uploadCalls] using h
    refine TryTriple.bind (isCancelled_runs hk) fun cancelled => TryTriple.of_pure (fun s h => h.1) ?_
    rintro rfl
    have hne' : pending ≠ [] := fun h => hne (by simp [h])
    have hbatch : (takeUploadBatch limit config.sync.largeFileNameSizeOnlyMinBytes pending 0
        false).1 ≠ [] := by
      rw [takeUploadBatch_eq]
      exact Batching.takeBatch_ne_nil (by omega) hne'
    have hperm := takeUploadBatch_perm limit config.sync.largeFileNameSizeOnlyMinBytes pending 0 false
    revert hbatch hperm
    generalize takeUploadBatch limit _ pending 0 false = next
    intro hbatch hperm
    dsimp only at hperm ⊢
    rw [if_neg (by simp),if_neg (by simpa using hbatch)]
    have hmem : ∀ u, u ∈ next.1 ∨ u ∈ next.2 → u ∈ pending := fun u hu =>
      hperm.mem_iff.mp (List.mem_append.mpr hu)
    refine TryTriple.bind ((spawnUploads_runs hu runId baseSummary hplan next.1
      (fun u hu => hpending u (hmem u (Or.inl hu))) 0).pre fun s h =>
        ⟨h.2.1.crewed,h.2.2⟩) fun _ => ?_
    refine TryTriple.bind ((joinUploads_runs hu root runId baseSummary (next.1.length+1)
      bytesUploaded).pre fun s h => ⟨⟨h.1.1,h.1.2.mono (by omega)⟩,h.2⟩) fun result => ?_
    refine Through.bind (fun hs => TryTriple.pure fun s h => ?_) fun _ => ?_
    · rw [hs]
      exact h
    · have hlength := hperm.length_eq
      rw [List.length_append] at hlength
      have hpos := List.length_pos_iff.mpr hbatch
      refine (ih _ next.2 (fun u hu => hpending u (hmem u (Or.inr hu))) (by omega)).post
        fun result s h => ?_
      have hcalls : (calls ++ uploadCalls next.1 ++ uploadCalls next.2).Perm
          (calls ++ uploadCalls pending) := by
        rw [List.append_assoc,← uploadCalls_append]
        exact List.Perm.append_left _ (hperm.map _)
      cases hstop : result.shouldStop with
      | true =>
        rw [hstop] at h
        exact h
      | false =>
        rw [hstop] at h
        exact ⟨⟨h.1.1.perm hcalls,h.1.2⟩,h.2⟩

end Uploads

section Deletes

variable {env : Environment ρ} (hu : Undisturbed env) {plan : LiveScanPlan}
  {report : SyncRunReport} (root : SyncRootConfig) (runId : Int) (baseSummary : SyncRunSummary)

theorem Working.settle (h : Working disk calls settled s) {path : Str}
    (hp : s.trace.any (Happening.settles path) = true) :
    Working disk calls (settled ++ [path]) s := by
  refine { h with settled := fun q hq => ?_ }
  rcases List.mem_append.mp hq with hq | hq
  · exact h.settled q hq
  · rw [List.mem_singleton.mp hq]
    exact hp

/-- A step that leaves the tasks alone and stops nothing. -/
theorem Alone.append (h : Alone disk calls settled s) {e : Effect SyncMemory} {answer : e.Answer}
    (he : e.onTasks = false) (hstop : (Happening.step e answer).isStop = false)
    (hstep : env.TraceStep SoundStep s e answer s') : Alone disk calls settled s' := by
  obtain ⟨_,hperform,htrace⟩ := hstep
  have htasks := hperform.tasks_eq he
  refine ⟨h.1.append (h.1.toSteady.of_perform hperform) htrace ?_ hstop,htasks.trans h.2⟩
  have hissued := h.1.issued
  unfold issued at hissued ⊢
  rw [htasks,htrace]
  simpa [List.filterMap_cons,Happening.taskCall] using hissued

/-- What is known after a client call that may settle the delete of `path`. -/
def Called (disk : LocalTree) (plan : LiveScanPlan) (report : SyncRunReport)
    (calls : List ClientCall) (settled : List Str) (path : Str)
    (happening : Happening SyncMemory) (s : Traced ρ SyncMemory) : Prop :=
  if happening.isStop then Halting disk s
  else if happening.settles path then Busy disk plan report calls (settled ++ [path]) s
  else Busy disk plan report calls settled s

include hu

theorem client_runs (path : Str) (call : ClientCall) :
    Runs env (Busy disk plan report calls settled) (SyncEngine.client call)
      fun answer => Called disk plan report calls settled path (.step (.client call) answer) := by
  have hk : Kept env disk (Busy disk plan report calls settled) :=
    (base_alone hu).kept unsummarized_planned
  refine TryTriple.perform hk.stable hk.respected fun s answer s' h hstep => ?_
  have htrace := hstep.2.2
  have hmemory : Planned plan report s'.world.memory := by
    rw [hstep.2.1.memory_eq (by simp)]
    exact h.2
  unfold Called
  split
  · rename_i hstop
    refine ⟨h.1.1.toSteady.of_perform hstep.2.1,by simp [htrace,hstop],?_⟩
    rw [htrace]
    exact stopsRespected_append h.1.1.respected fun _ => h.1.1.unstopped
  · rename_i hstop
    have halone := h.1.append rfl (by simpa using hstop) hstep
    split
    · rename_i hsettles
      exact ⟨⟨halone.1.settle (by simp [htrace,hsettles]),halone.2⟩,hmemory⟩
    · exact ⟨halone,hmemory⟩

omit hu in
theorem recordDeleted_runs {I : Traced ρ SyncMemory → Prop} (hk : Kept env disk I)
    (operationId : Int) (delete : RemoteDeleteOperation) :
    Runs env I (SyncEngine.recordDeleted runId operationId delete) fun _ => I :=
  SyncEngine.recordDeleted_of (quiet_runs hk runId {})
    (fun _ => ⟨state_runs hk _,state_runs hk _⟩) (fun _ _ => state_runs hk _) operationId delete

theorem deleteRemote_runs (operationId : Int) (delete : RemoteDeleteOperation) :
    Runs env (Busy disk plan report calls settled)
      (SyncEngine.deleteRemote root runId baseSummary operationId delete)
      (Through disk plan report calls (settled ++ [delete.remotePath])) := by
  have hk : Kept env disk (Busy disk plan report calls (settled ++ [delete.remotePath])) :=
    (base_alone hu).kept unsummarized_planned
  refine TryTriple.bind (client_runs hu delete.remotePath _) fun answer => ?_
  cases answer with
  | ok _ =>
    refine TryTriple.pre (P := Busy disk plan report calls (settled ++ [delete.remotePath])) ?_
      fun s h => by simpa [Called,Happening.isStop,Happening.settles] using h
    exact TryTriple.bind (recordDeleted_runs runId hk operationId delete) fun _ =>
      TryTriple.bind (modifySummary_runs hk _) fun _ =>
        TryTriple.bind ((quiet_runs hk runId baseSummary).persistRootProgress) fun _ =>
          TryTriple.pure fun _ h => h
  | error error =>
    by_cases hstop : isStopError error.kind = true
    · refine iteInduction (motive := fun p => Runs env _ p _) (fun hnot => ?_) fun _ => ?_
      · rw [hnot] at hstop
        cases hstop
      · have hfailure : Runs env (Halting disk) _ _ := recordClientFailure_stops hu root runId
          baseSummary hstop operationId "delete_remote".toList none delete.remotePath
        refine (hfailure.pre fun s h => ?_).post fun stop s h => ?_
        · simpa [Called,Happening.isStop,hstop] using h
        · rw [h.1]
          exact h.2
    · refine TryTriple.pre (P := Busy disk plan report calls (settled ++ [delete.remotePath])) ?_
        fun s h => by simpa [Called,Happening.isStop,Happening.settles,hstop] using h
      refine iteInduction (motive := fun p => Runs env _ p _) (fun _ => ?_) fun _ => ?_
      · exact TryTriple.bind (recordDeleted_runs runId hk operationId delete) fun _ =>
          TryTriple.pure fun _ h => h
      · refine (recordClientFailure_goes_on root runId baseSummary hk (by simpa using hstop)
          operationId _ _ _).post fun stop s h => ?_
        rw [h.1]
        exact h.2

/-- A failed look-up counts the delete as failed. -/
theorem recordLookupFailure_runs {error : YandexDiskError} (h : isStopError error.kind = false)
    (operationId : Int) (path : Str) :
    Runs env (Busy disk plan report calls settled)
      (SyncEngine.recordClientFailure root runId baseSummary operationId
        "delete_remote_metadata_check".toList none path error)
      fun stop s => stop = false ∧ Busy disk plan report calls (settled ++ [path]) s := by
  have hk : Kept env disk (Busy disk plan report calls settled) :=
    (base_alone hu).kept unsummarized_planned
  have hk' : Kept env disk (Busy disk plan report calls (settled ++ [path])) :=
    (base_alone hu).kept unsummarized_planned
  have hmark : ∀ record : FailedItemRecord,
      record.operation = "delete_remote_metadata_check".toList → record.remotePath = some path →
      Runs env (Busy disk plan report calls settled) (SyncEngine.state (.markFailed record))
        fun _ => Busy disk plan report calls (settled ++ [path]) := by
    intro record hoperation hpath
    have hcall : Runs env (Busy disk plan report calls settled)
        (SyncEngine.perform (.state (.markFailed record)))
        fun answer s => answer.isOk = true ∧ Busy disk plan report calls (settled ++ [path]) s := by
      refine TryTriple.perform hk.stable hk.respected fun s answer s' h hstep => ?_
      have hbusy := hk.calm s (.state (.markFailed record)) answer s' rfl h hstep
      refine ⟨SoundStep.isOk hstep.1,⟨hbusy.1.1.settle ?_,hbusy.1.2⟩,hbusy.2⟩
      rw [hstep.2.2]
      simp [Happening.settles,hoperation,hpath]
    refine TryTriple.bind hcall fun answer => ?_
    cases answer with
    | ok result => exact TryTriple.pure fun _ h => h.2
    | error error => exact TryTriple.throw fun _ h => by simp [Except.isOk,Except.toBool] at h
  have hrecord : Runs env (Busy disk plan report calls settled)
      (SyncEngine.recordOperationFailure runId baseSummary operationId {
        rootId := root.id, localPath := none, remotePath := some path
        operation := "delete_remote_metadata_check".toList, errorKind := error.kind.asStr
        errorMessage := error.message })
      fun _ => Busy disk plan report calls (settled ++ [path]) :=
    TryTriple.bind (state_runs hk _) fun _ => TryTriple.bind (hmark _ rfl rfl) fun _ =>
      TryTriple.bind (modifySummary_runs hk' _) fun _ =>
        (quiet_runs hk' runId baseSummary).persistRootProgress
  refine TryTriple.bind hrecord fun _ => ?_
  rw [if_neg (by simp [h])]
  exact TryTriple.pure fun _ h => ⟨rfl,h⟩

theorem applyDelete_runs (inventoryFromCache : Bool) (delete : RemoteDeleteOperation) :
    Runs env (Busy disk plan report calls settled)
      (SyncEngine.applyDelete root runId baseSummary inventoryFromCache delete)
      (Through disk plan report calls (settled ++ [delete.remotePath])) := by
  have hk : Kept env disk (Busy disk plan report calls settled) :=
    (base_alone hu).kept unsummarized_planned
  have hk' : Kept env disk (Busy disk plan report calls (settled ++ [delete.remotePath])) :=
    (base_alone hu).kept unsummarized_planned
  refine TryTriple.bind (state_runs hk _) fun operationId => ?_
  refine iteInduction (motive := fun p => Runs env _ p _) (fun _ => ?_)
    fun _ => deleteRemote_runs hu root runId baseSummary operationId delete
  refine TryTriple.bind (client_runs hu delete.remotePath _) fun answer => ?_
  cases answer with
  | ok _ =>
    refine (deleteRemote_runs hu root runId baseSummary operationId delete).pre fun s h => ?_
    simpa [Called,Happening.isStop,Happening.settles] using h
  | error error =>
    refine iteInduction (motive := fun p => Runs env _ p _) (fun hnot => ?_) fun hne => ?_
    · refine TryTriple.pre (P := Busy disk plan report calls (settled ++ [delete.remotePath])) ?_
        fun s h => by simpa [Called,Happening.isStop,Happening.settles,hnot,isStopError] using h
      exact TryTriple.bind (state_runs hk' _) fun _ => TryTriple.bind (state_runs hk' _)
        fun _ => TryTriple.pure fun _ h => h
    · by_cases hstop : isStopError error.kind = true
      · have hfailure : Runs env (Halting disk) _ _ := recordClientFailure_stops hu root runId
          baseSummary hstop operationId "delete_remote_metadata_check".toList none delete.remotePath
        refine (hfailure.pre fun s h => ?_).post fun stop s h => ?_
        · simpa [Called,Happening.isStop,hstop] using h
        · rw [h.1]
          exact h.2
      · have hfailure : Runs env (Busy disk plan report calls settled) _ _ :=
          recordLookupFailure_runs hu root runId baseSummary (by simpa using hstop) operationId
            delete.remotePath
        refine (hfailure.pre fun s h => ?_).post fun stop s h => ?_
        · simpa [Called,Happening.isStop,Happening.settles,hstop,hne] using h
        · rw [h.1]
          exact h.2

theorem deleteEach_runs (inventoryFromCache : Bool) (deletes : List RemoteDeleteOperation) :
    Runs env (Busy disk plan report calls settled)
      (SyncEngine.deleteEach root runId baseSummary inventoryFromCache deletes)
      (Through disk plan report calls
        (settled ++ deletes.map RemoteDeleteOperation.remotePath)) := by
  induction deletes generalizing settled with
  | nil => exact TryTriple.pure fun _ h => by simpa [Through] using h
  | cons delete deletes ih =>
    have hk : Kept env disk (Busy disk plan report calls settled) :=
      (base_alone hu).kept unsummarized_planned
    refine TryTriple.bind (isCancelled_runs hk) fun cancelled => TryTriple.of_pure (fun s h => h.1) ?_
    rintro rfl
    refine TryTriple.bind ((applyDelete_runs hu root runId baseSummary inventoryFromCache
      delete).pre fun _ h => h.2) fun stop => ?_
    refine Through.bind (fun _ => TryTriple.pure fun _ h => h) fun _ => ?_
    refine ih.post fun stop s h => ?_
    rw [List.map_cons,List.append_cons]
    exact h

end Deletes

end FaultIsolation

end YaDiskSync

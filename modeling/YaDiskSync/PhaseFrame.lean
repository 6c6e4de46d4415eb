import YaDiskSync.SyncAsks
import YaDiskSync.Trace

/-! What the creates and the uploads of a plan keep: whatever their tasks and local steps leave
alone. After each of the two phases no task is out. -/
namespace YaDiskSync

open Prog

/-- Steps outside of the tasks and the client. -/
def Effect.isLocal {μ : Type} : Effect μ → Bool
  | .client _ | .spawn _ | .joinNext | .dropTasks => false
  | _ => true

theorem Effect.isLocal.onTasks {μ : Type} {e : Effect μ} (h : e.isLocal = true) :
    e.onTasks = false := by
  cases e <;> first | rfl | cases h

namespace SyncEngine

variable {ρ : Type} {env : Environment ρ}
  {allowed : Traced ρ SyncMemory → (e : Effect SyncMemory) → e.Answer → Prop}

section Crews

theorem state_crew {kind : Task → Prop} (n : Nat) (call : StateCall) :
    Leads (env.TraceStep allowed) env.TraceDrift (fun _ => True) (Crew kind n) (state call)
      fun _ => Crew kind n :=
  state_leads stable_crew (fun _ _ _ h hstep => h.of_step rfl hstep) fun _ _ _ _ _ => trivial

theorem routine_crew {kind : Task → Prop} (n : Nat) : Routine fun ⦃α⦄ (p : Engine α) =>
    Upholds (env.TraceStep allowed) env.TraceDrift (Crew kind n) (fun _ => True) p :=
  routine_upholds stable_crew
    (fun e he s answer s' h hstep => h.of_step (by cases e <;> first | rfl | cases he) hstep)
    fun _ _ _ _ _ _ _ => trivial

theorem spawn_crew {kind : Task → Prop} (n : Nat) {task : Task} (htask : kind task) :
    Leads (env.TraceStep allowed) env.TraceDrift (fun _ => True) (Crew kind n)
      (perform (.spawn task)) fun _ => Crew kind (n+1) :=
  TryTriple.perform stable_crew (fun _ _ => trivial) fun _ _ _ h hstep => h.spawn htask hstep

theorem drop_crew {kind : Task → Prop} (n : Nat) :
    Leads (env.TraceStep allowed) env.TraceDrift (fun _ => True) (Crew kind n)
      (perform .dropTasks) fun _ => Crew kind 0 :=
  TryTriple.perform stable_crew (fun _ _ => trivial) fun _ _ _ _ hstep => crew_drop hstep

/-- Creates are the only tasks while directories are created. -/
theorem creators_crew (runId : Int) : Creators (env.TraceStep allowed) env.TraceDrift
    (fun _ => True) runId (Crew Task.IsCreate) (fun _ _ => Crew Task.IsCreate)
    (fun _ _ _ => Crew Task.IsCreate) where
  mono n s h := h.mono (Nat.le_succ n)
  routine := routine_crew
  opened n directory := state_crew n _
  spawned n directory operationId := spawn_crew n trivial
  joined n := TryTriple.perform stable_crew (fun _ _ => trivial) fun s joined s' h hstep => by
    cases h.join hstep with
    | none ht hw => exact crew_nil (by rw [hw]; exact ht)
    | @some task outcome hkind hyields _ _ hcrew _ _ =>
      cases task with
      | upload => exact hkind.elim
      | createDirectory directory operationId =>
        obtain ⟨result,rfl⟩ := hyields
        exact hcrew
  created n directory operationId :=
    TryTriple.bind (state_crew n _) fun _ => TryTriple.bind (state_crew n _) fun _ => state_crew n _
  failed n _ _ _ := state_crew n _
  dropped := drop_crew

/-- Uploads are the only tasks while files are uploaded. -/
theorem uploaders_crew (runId : Int) (baseSummary : SyncRunSummary) :
    Uploaders (env.TraceStep allowed) env.TraceDrift (fun _ => True) runId baseSummary
      (Crew fun task => ¬ task.IsCreate) (fun _ _ _ => Crew fun task => ¬ task.IsCreate)
      (fun _ _ => Crew fun task => ¬ task.IsCreate) where
  mono n s h := h.mono (Nat.le_succ n)
  routine := routine_crew
  opened n file isUpdate := state_crew n _
  spawned n file isUpdate operationId := spawn_crew n id
  joined n := TryTriple.perform stable_crew (fun _ _ => trivial) fun s joined s' h hstep => by
    cases h.join hstep with
    | none ht hw => exact crew_nil (by rw [hw]; exact ht)
    | @some task outcome hkind hyields _ _ hcrew _ _ =>
      cases task with
      | createDirectory => exact (hkind trivial).elim
      | upload operationId file isUpdate text =>
        obtain ⟨result,rfl⟩ := hyields
        exact hcrew
  uploaded n outcome _ := by
    have hr : Routine fun ⦃α⦄ (p : Engine α) => Upholds (env.TraceStep allowed) env.TraceDrift
        (Crew (fun task => ¬ task.IsCreate) n) (fun _ => True) p := routine_crew n
    refine TryTriple.bind (state_crew n _) fun _ => ?_
    refine TryTriple.bind (Q := fun _ => Crew (fun task => ¬ task.IsCreate) n) ?_ fun status => ?_
    · refine TryTriple.bind (hr.routine (.fileMetadata _) rfl) fun found => ?_
      cases found with
      | none => exact TryTriple.pure fun _ h => h
      | some found =>
        exact iteInduction (motive := fun p => TryTriple _ _ _ p _ _ _)
          (fun _ => TryTriple.pure fun _ h => h) fun _ => TryTriple.pure fun _ h => h
    · exact TryTriple.bind (state_crew n _) fun _ => TryTriple.bind (state_crew n _) fun _ =>
        TryTriple.bind (hr.updateMemory _) fun _ => hr.persistRootProgress runId baseSummary
  pending n _ := (routine_crew n).register _ _ _
  failed n _ _ _ _ _ _ := state_crew n _
  skipped n _ _ := state_crew n _
  dropped := drop_crew

end Crews

/-- What the environment and local steps leave alone; `C` holds wherever it does. -/
structure KeptLocally (env : Environment ρ)
    (allowed : Traced ρ SyncMemory → (e : Effect SyncMemory) → e.Answer → Prop)
    (C B : Traced ρ SyncMemory → Prop) : Prop where
  stable : Stable env.TraceDrift B
  cut : ∀ s, B s → C s
  local_step : ∀ s e answer s', e.isLocal = true → B s → env.TraceStep allowed s e answer s' → B s'

namespace KeptLocally

variable {B C : Traced ρ SyncMemory → Prop} (hb : KeptLocally env allowed C B)

include hb

theorem sequential : Sequential fun ⦃α⦄ (p : Engine α) =>
    Keeps (env.TraceStep allowed) env.TraceDrift C B p :=
  sequential_keeps hb.cut

theorem perform {e : Effect SyncMemory} (he : e.isLocal = true) :
    Keeps (env.TraceStep allowed) env.TraceDrift C B (SyncEngine.perform e) :=
  Keeps.perform hb.stable hb.cut fun s answer s' h hstep => hb.local_step s e answer s' he h hstep

theorem state (call : StateCall) :
    Keeps (env.TraceStep allowed) env.TraceDrift C B (SyncEngine.state call) :=
  sequential_state hb.sequential (hb.perform rfl)

theorem quiet (runId : Int) (baseSummary : SyncRunSummary) :
    Quiet runId baseSummary fun ⦃α⦄ (p : Engine α) =>
      Keeps (env.TraceStep allowed) env.TraceDrift C B p where
  toComposable := hb.sequential.toComposable
  report _ := hb.state _
  readMemory := hb.perform rfl
  modifySummary _ _ := hb.perform rfl
  isCancelled := hb.perform rfl
  state _ := hb.state _
  persistRootProgress := hb.sequential.bind (hb.perform rfl) fun _ => hb.state _
  cleanupStagingFiles := cleanupStagingFiles_of hb.sequential fun _ => hb.perform rfl
  fileMetadata _ := hb.perform rfl

theorem register (localPath : LocalPath) (relativePath remotePath : Str) :
    Keeps (env.TraceStep allowed) env.TraceDrift C B
      (registerMissingLocalPath localPath relativePath remotePath) := by
  have hlive : Keeps (env.TraceStep allowed) env.TraceDrift C B livePlan :=
    hb.sequential.bind (hb.perform rfl) fun _ => hb.sequential.pure _
  refine hb.sequential.bind hlive fun plan => ?_
  refine hb.sequential.bind (registerMissingLocalPath_of hb.sequential.toComposable
    (fun path => hb.perform (e := .isDir path) rfl)
    (fun path => hb.perform (e := .pathExists path) rfl) plan _ _ _) fun _ => ?_
  exact hb.sequential.bind (hb.perform rfl) fun _ => hb.sequential.pure _

/-- The same while no task is out. -/
theorem alone : KeptLocally env allowed C fun s => B s ∧ s.world.tasks = [] where
  stable := hb.stable.and stable_noTasks
  cut s h := hb.cut s h.1
  local_step s e answer s' he h hstep :=
    ⟨hb.local_step s e answer s' he h.1 hstep,(hstep.2.1.tasks_eq (Effect.isLocal.onTasks he)).trans h.2⟩

variable (config : AppConfig) (root : SyncRootConfig) (runId : Int) (baseSummary : SyncRunSummary)

/-- The deletes of a plan look resources up and delete them. -/
theorem applyDeletes (canonicalRemotePath : Str) (inventory : Inventory)
    (inventoryFromCache : Bool)
    (hcall : ∀ path, ∀ call ∈ [ClientCall.metadata path,.deletePermanently path],
      ∀ s answer s', B s → env.TraceStep allowed s (.client call) answer s' → B s') :
    Keeps (env.TraceStep allowed) env.TraceDrift C B
      (applyDeletes root runId baseSummary canonicalRemotePath inventory inventoryFromCache) := by
  have hq := hb.quiet runId baseSummary
  refine hq.bind hq.livePlan fun plan => deleteEach_of hq root _ _ fun delete _ => ?_
  have hclient : ∀ call ∈ [ClientCall.metadata delete.remotePath,
      .deletePermanently delete.remotePath],
      Keeps (env.TraceStep allowed) env.TraceDrift C B (client call) := fun call hmem =>
    Keeps.perform hb.stable hb.cut fun s answer s' => hcall delete.remotePath call hmem s answer s'
  refine applyDelete_of hq root (hclient _ (by simp)) (hclient _ (by simp)) (fun operationId => ?_)
    (hb.state _) inventoryFromCache
  exact recordDeleted_of hq (fun _ => ⟨hb.state _,hb.state _⟩) (fun _ _ => hb.state _) operationId
    delete

variable (htasks : ∀ s e answer s', e.onTasks = true → B s →
  env.TraceStep allowed s e answer s' → B s') (rootPlan : RootPlan)

include htasks

theorem phases : Phases runId baseSummary fun ⦃α⦄ (p : Engine α) =>
    Keeps (env.TraceStep allowed) env.TraceDrift C B p := by
  have hask : ∀ e : Effect SyncMemory, e.onTasks = true →
      Keeps (env.TraceStep allowed) env.TraceDrift C B (SyncEngine.perform e) := fun e he =>
    Keeps.perform hb.stable hb.cut fun s answer s' => htasks s e answer s' he
  exact {
    toQuiet := hb.quiet runId baseSummary
    register := hb.register
    spawn := fun task => hask (.spawn task) rfl
    joinNext := hask .joinNext rfl
    dropTasks := hask .dropTasks rfl
    upsertDirectoryState := fun _ => hb.state _
    upsertFileState := fun _ => hb.state _
    upsertRemoteResource := fun _ => hb.state _ }

theorem applyCreateDirectories :
    TryTriple (env.TraceStep allowed) env.TraceDrift (fun s => B s ∧ s.world.tasks = [])
      (applyCreateDirectories config root runId baseSummary rootPlan)
      (fun _ s => B s ∧ s.world.tasks = []) C C := by
  have hkept := (hb.phases runId baseSummary htasks).applyCreateDirectories config root rootPlan
  exact (TryTriple.and hkept ((creators_crew runId).applyCreateDirectories config rootPlan)).weaken
    (fun _ h => ⟨h.1,crew_nil h.2⟩) (fun _ _ h => ⟨h.1,h.2.tasks_nil⟩) (fun _ h => h.1)
    fun _ h => h.1

theorem applyUploads :
    TryTriple (env.TraceStep allowed) env.TraceDrift (fun s => B s ∧ s.world.tasks = [])
      (applyUploads config root runId baseSummary rootPlan)
      (fun _ s => B s ∧ s.world.tasks = []) C C := by
  have hkept := (hb.phases runId baseSummary htasks).applyUploads config root rootPlan
    fun _ _ => hb.perform rfl
  exact (TryTriple.and hkept ((uploaders_crew runId baseSummary).applyUploads config
    rootPlan)).weaken (fun _ h => ⟨h.1,crew_nil h.2⟩) (fun _ _ h => ⟨h.1,h.2.tasks_nil⟩)
    (fun _ h => h.1) fun _ h => h.1

end KeptLocally

end SyncEngine

end YaDiskSync

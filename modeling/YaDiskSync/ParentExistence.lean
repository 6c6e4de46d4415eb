import YaDiskSync.CreateOrder
import YaDiskSync.TypeConflicts

/-! On a remote that refuses what has no parent directory, a run makes the directories it needs
before what goes into them. Those above the canonical root it does not make. -/
namespace YaDiskSync

open Prog

section Parents

variable {μ : Type} {env : Environment RemoteDisk}
  {allowed : Traced RemoteDisk μ → (e : Effect μ) → e.Answer → Prop}
  {s s' : Traced RemoteDisk μ}

/-- Whatever is about to be made, the directory it is in exists. -/
def ParentsExist (s : Traced RemoteDisk μ) : Prop :=
  ∀ running ∈ s.world.tasks, running.outcome = none → ∀ made, running.task.call.makes = some made →
    s.world.remote.hasParent made.1 = true

theorem RemoteDisk.hasParent_mono {disk disk' : RemoteDisk}
    (h : ∀ q, disk.resources.holds q .directory = true → disk'.resources.holds q .directory = true)
    {path : Str} (hparent : disk.hasParent path = true) : disk'.hasParent path = true := by
  unfold hasParent at hparent ⊢
  cases hlast : (parentRemotePaths path).getLast? with
  | none => rfl
  | some parent =>
    rw [hlast] at hparent
    exact h parent hparent

theorem RefusesOtherType.stable_hasParent (henv : RefusesOtherType env) (path : Str) :
    Stable env.TraceDrift fun s : Traced RemoteDisk μ => s.world.remote.hasParent path = true :=
  fun s s' h hdrift => RemoteDisk.hasParent_mono
    (fun q hq => henv.stable_holds q .directory s s' hq hdrift) h

theorem RefusesOtherType.stable_parentsExist (henv : RefusesOtherType env) :
    Stable env.TraceDrift (ParentsExist (μ := μ)) := by
  intro s s' h hdrift running hr hnone made hmakes
  refine henv.stable_hasParent made.1 s s' ?_ hdrift
  cases hdrift with
  | land ht _ =>
    refine h running ?_ hnone made hmakes
    rw [ht]
    rcases List.mem_append.mp hr with hr | hr
    · exact List.mem_append_left _ hr
    rcases List.mem_cons.mp hr with rfl | hr
    · cases hnone
    · exact List.mem_append_right _ (List.mem_cons_of_mem _ hr)
  | disk _ => exact h running hr hnone made hmakes
  | cancel _ => exact h running hr hnone made hmakes
  | tick _ => exact h running hr hnone made hmakes

/-- Steps that call nothing and start nothing. -/
theorem ParentsExist.step (h : ParentsExist s) {e : Effect μ} {answer : e.Answer}
    (he : ∀ call, e ≠ .client call) (hspawn : ∀ task, e ≠ .spawn task)
    (hstep : env.TraceStep allowed s e answer s') : ParentsExist s' := by
  intro running hr hnone made hmakes
  rw [hstep.2.1.remote_eq he]
  refine h running ?_ hnone made hmakes
  cases e with
  | client call => exact absurd rfl (he call)
  | spawn task => exact absurd rfl (hspawn task)
  | dropTasks =>
    rw [show s'.world = { s.world with tasks := [] } from hstep.2.1] at hr
    cases hr
  | joinNext =>
    rcases hstep.2.1 with ⟨-,-,hw⟩ | ⟨before,task,outcome,after,-,ht,hw⟩
    · rwa [hw] at hr
    · rw [hw] at hr
      rw [ht]
      rcases List.mem_append.mp hr with hr | hr
      · exact List.mem_append_left _ hr
      · exact List.mem_append_right _ (List.mem_cons_of_mem _ hr)
  | _ => rwa [← hstep.2.1.tasks_eq rfl]

theorem ParentsExist.spawn (h : ParentsExist s) {task : Task} {answer : Unit}
    (hparent : ∀ made, task.call.makes = some made → s.world.remote.hasParent made.1 = true)
    (hstep : env.TraceStep allowed s (.spawn task) answer s') : ParentsExist s' := by
  have hworld : s'.world = { s.world with tasks := s.world.tasks ++ [{ task }] } := hstep.2.1
  intro running hr hnone made hmakes
  rw [hworld] at hr ⊢
  rcases List.mem_append.mp hr with hr | hr
  · exact h running hr hnone made hmakes
  · rw [List.mem_singleton.mp hr] at hmakes
    exact hparent made hmakes

end Parents

section Creates

variable {env : Environment RemoteDisk}
  {allowed : Traced RemoteDisk SyncMemory → (e : Effect SyncMemory) → e.Answer → Prop}
  {start : SyncMemory} {plan : RootPlan} {rootLocalPath : LocalPath}
  {before : RemoteDisk} {s s' : Traced RemoteDisk SyncMemory}

/-- A create of the plan, of which the parent exists before and the directory afterwards. -/
def HousedTask (plan : RootPlan) (remote : RemoteDisk) (running : RunningTask) : Prop :=
  ∃ directory ∈ plan.createDirectories, ∃ operationId,
    running.task = .createDirectory directory operationId ∧
      (running.outcome = none → remote.hasParent directory.remotePath = true) ∧
      ∀ outcome, running.outcome = some outcome →
        (∃ result, outcome = .created directory operationId result) ∧
          remote.resources.holds directory.remotePath .directory = true

/-- While directories are created: those there before are still there, nothing is in the way of
the others, and what is out or collected is housed. -/
structure Housed (before : RemoteDisk) (plan : RootPlan) (s : Traced RemoteDisk SyncMemory) :
    Prop where
  kept : ∀ path, before.hasParent path = true → s.world.remote.hasParent path = true
  free : ∀ directory ∈ plan.createDirectories,
    s.world.remote.resources.holds directory.remotePath .file = false
  tasks : ∀ running ∈ s.world.tasks, HousedTask plan s.world.remote running
  joined : ∀ directory ∈ s.trace.filterMap Happening.joinedCreate,
    s.world.remote.resources.holds directory.remotePath .directory = true

theorem Housed.parentsExist (h : Housed before plan s) : ParentsExist s := by
  intro running hr hnone made hmakes
  obtain ⟨directory,-,operationId,htask,hparent,-⟩ := h.tasks running hr
  rw [htask] at hmakes
  cases hmakes
  exact hparent hnone

theorem HousedTask.mono {remote remote' : RemoteDisk} {running : RunningTask}
    (hkept : ∀ q, remote.resources.holds q .directory = true →
      remote'.resources.holds q .directory = true) (h : HousedTask plan remote running) :
    HousedTask plan remote' running := by
  obtain ⟨directory,hd,operationId,htask,hparent,houtcome⟩ := h
  exact ⟨directory,hd,operationId,htask,fun hnone => RemoteDisk.hasParent_mono hkept (hparent hnone),
    fun outcome ho => ⟨(houtcome outcome ho).1,hkept _ (houtcome outcome ho).2⟩⟩

/-- A step that leaves the remote alone and collects nothing. -/
theorem Housed.append {happening : Happening SyncMemory}
    (h : Housed before plan s) (hremote : s'.world.remote = s.world.remote)
    (htasks : ∀ running ∈ s'.world.tasks, HousedTask plan s.world.remote running)
    (htrace : s'.trace = s.trace ++ [happening])
    (hjoined : ∀ directory, happening.joinedCreate = some directory →
      s.world.remote.resources.holds directory.remotePath .directory = true) :
    Housed before plan s' := by
  refine ⟨hremote ▸ h.kept,hremote ▸ h.free,hremote ▸ htasks,fun directory hd => ?_⟩
  rw [htrace,List.filterMap_append] at hd
  rw [hremote]
  rcases List.mem_append.mp hd with hd | hd
  · exact h.joined directory hd
  · obtain ⟨other,ho,hdirectory⟩ := List.mem_filterMap.mp hd
    rw [List.mem_singleton.mp ho] at hdirectory
    exact hjoined directory hdirectory

variable (henv : StrictRemote env)

include henv

/-- A create that finishes has made its directory. -/
theorem stable_housed : Stable env.TraceDrift (Housed before plan) := by
  intro s s' h hdrift
  have hkept : ∀ q, s.world.remote.resources.holds q .directory = true →
      s'.world.remote.resources.holds q .directory = true := fun q hq =>
    henv.stable_holds q .directory s s' hq hdrift
  have hbefore : ∀ path, before.hasParent path = true → s'.world.remote.hasParent path = true :=
    fun path hpath => henv.stable_hasParent path s s' (h.kept path hpath) hdrift
  cases hdrift with
  | @land before after task outcome remote ht hl =>
    obtain ⟨directory,hd,operationId,htask,hparent,-⟩ := h.tasks { task } (by simp [ht])
    obtain rfl : task = .createDirectory directory operationId := htask
    obtain ⟨answer,hclient,rfl⟩ := hl
    obtain ⟨-,hmade⟩ := henv.creates hclient (hparent rfl) (h.free directory hd)
    refine ⟨hbefore,fun other ho => ?_,fun running hr => ?_,fun other ho => ?_⟩
    · rcases henv.made hclient rfl other.remotePath with heq | ⟨heq,hheld⟩
      · dsimp only
        rw [Inventory.holds,heq]
        exact h.free other ho
      · rw [heq]
        exact Inventory.not_holds_both hheld
    · rcases List.mem_append.mp hr with hr | hr
      · exact (h.tasks running (by simp [ht,hr])).mono hkept
      rcases List.mem_cons.mp hr with rfl | hr
      · refine ⟨directory,hd,operationId,rfl,(fun hnone => (Option.some_ne_none _ hnone).elim),fun outcome ho => ?_⟩
        cases ho
        exact ⟨⟨answer,rfl⟩,hmade⟩
      · exact (h.tasks running (by simp [ht,hr])).mono hkept
    · rw [List.filterMap_append] at ho
      rcases List.mem_append.mp ho with ho | ho
      · exact hkept _ (h.joined other ho)
      · cases ho
  | disk _ => exact ⟨h.kept,h.free,h.tasks,h.joined⟩
  | cancel _ => exact ⟨h.kept,h.free,h.tasks,h.joined⟩
  | tick _ => exact ⟨h.kept,h.free,h.tasks,h.joined⟩

/-- The directory an entry is in was there before, or the plan creates it. -/
def Placed (before : RemoteDisk) (plan : RootPlan) (remotePath relativePath : Str) : Prop :=
  before.hasParent remotePath = true ∨ ∃ above ∈ plan.createDirectories,
    (parentRemotePaths remotePath).getLast? = some above.remotePath ∧ IsAbove above relativePath

omit henv in
theorem RemoteDisk.hasParent_of_getLast? {disk : RemoteDisk} {path parent : Str}
    (hparent : (parentRemotePaths path).getLast? = some parent)
    (hheld : disk.resources.holds parent .directory = true) : disk.hasParent path = true := by
  rw [hasParent,hparent]
  exact hheld

/-- Creates that are placed are housed. -/
theorem companion_housed (hspared : start.currentPlan.isDeletedRelativePath [] = false)
    (hplaced : ∀ directory ∈ plan.createDirectories,
      Placed before plan directory.remotePath directory.relativePath) :
    Companion env allowed start plan rootLocalPath (Housed before plan) where
  stable := stable_housed henv
  local_step := by
    intro s s' e answer he h hstep
    have hcall : ∀ call, e ≠ .client call := fun call hc => by rw [hc] at he; cases he
    refine h.append (hstep.2.1.remote_eq hcall) ?_ hstep.2.2 fun directory hd => ?_
    · rw [hstep.2.1.tasks_eq (Effect.isLocal.onTasks he)]
      exact h.tasks
    · cases e <;> first | cases hd | cases he
  spawn := by
    intro s s' directory queue depth count operationId answer hcreating hdepth hqueue hready h hstep
    have hworld : s'.world = { s.world with
        tasks := s.world.tasks ++ [{ task := .createDirectory directory operationId }] } :=
      hstep.2.1
    have hd : directory ∈ plan.createDirectories :=
      hcreating.once.subset (List.mem_append_right _ List.mem_cons_self)
    have hparent : s.world.remote.hasParent directory.remotePath = true := by
      rcases hplaced directory hd with hthere | ⟨above,habove,hparent,hover⟩
      · exact h.kept _ hthere
      · exact RemoteDisk.hasParent_of_getLast? hparent
          (h.joined above (hready hspared above habove hover))
    refine h.append (by rw [hworld]) (fun running hr => ?_) hstep.2.2 fun _ hnone => nomatch hnone
    rw [hworld] at hr
    rcases List.mem_append.mp hr with hr | hr
    · exact h.tasks running hr
    · rw [List.mem_singleton.mp hr]
      exact ⟨directory,hd,operationId,rfl,fun _ => hparent,fun _ ho => nomatch ho⟩
  join := by
    intro s s' joined h hstep
    rcases hstep.2.1 with ⟨rfl,-,hw⟩ | ⟨before,task,outcome,after,rfl,ht,hw⟩
    · exact h.append (by rw [hw]) (by rw [hw]; exact h.tasks) hstep.2.2 fun _ hnone => nomatch hnone
    · obtain ⟨directory,-,operationId,htask,-,houtcome⟩ :=
        h.tasks { task, outcome := some outcome } (by simp [ht])
      obtain ⟨⟨result,rfl⟩,hheld⟩ := houtcome outcome rfl
      refine h.append (by rw [hw]) (fun running hr => ?_) hstep.2.2 fun other ho => ?_
      · rw [hw] at hr
        refine h.tasks running ?_
        rw [ht]
        rcases List.mem_append.mp hr with hr | hr
        · exact List.mem_append_left _ hr
        · exact List.mem_append_right _ (List.mem_cons_of_mem _ hr)
      · cases ho
        exact hheld
  drop := by
    intro s s' answer h hstep
    have hworld : s'.world = { s.world with tasks := [] } := hstep.2.1
    exact h.append (by rw [hworld]) (by simp [hworld]) hstep.2.2 fun _ hnone => nomatch hnone

end Creates

section Uploads

variable {env : Environment RemoteDisk}
  {allowed : Traced RemoteDisk SyncMemory → (e : Effect SyncMemory) → e.Answer → Prop}
  {plan : RootPlan} {before : RemoteDisk} {s s' : Traced RemoteDisk SyncMemory}

/-- After the creates: every directory exists but for those of deleted subtrees. -/
structure Lodged (before : RemoteDisk) (plan : RootPlan) (s : Traced RemoteDisk SyncMemory) :
    Prop where
  kept : ∀ path, before.hasParent path = true → s.world.remote.hasParent path = true
  built : ∀ directory ∈ plan.createDirectories,
    s.world.memory.currentPlan.isDeletedRelativePath directory.relativePath = true ∨
      s.world.remote.resources.holds directory.remotePath .directory = true
  spared : s.world.memory.currentPlan.isDeletedRelativePath [] = false
  parents : ParentsExist s

/-- What is placed and not deleted has its directory. -/
theorem Lodged.hasParent (h : Lodged before plan s) {remotePath relativePath : Str}
    (hplaced : Placed before plan remotePath relativePath)
    (hlive : s.world.memory.currentPlan.isDeletedRelativePath relativePath = false) :
    s.world.remote.hasParent remotePath = true := by
  rcases hplaced with hthere | ⟨above,habove,hparent,hover⟩
  · exact h.kept _ hthere
  · refine RemoteDisk.hasParent_of_getLast? hparent ((h.built above habove).resolve_left ?_)
    intro hdeleted
    rw [hover.isDeleted h.spared hdeleted] at hlive
    cases hlive

/-- The remote is left alone, and the live plan at most shrinks. -/
theorem Lodged.of_shrunk (h : Lodged before plan s) (hremote : s'.world.remote = s.world.remote)
    (hshrunk : s.world.memory.currentPlan.Shrunk s'.world.memory.currentPlan)
    (hparents : ParentsExist s') : Lodged before plan s' where
  kept := hremote ▸ h.kept
  built directory hd := hremote ▸ (h.built directory hd).imp_left (hshrunk.deleted _)
  spared := hshrunk.spared.trans h.spared
  parents := hparents

variable (henv : RefusesOtherType env)

include henv

theorem keptShrinking_lodged :
    SyncEngine.KeptShrinking env allowed ParentsExist (Lodged before plan) where
  stable s s' h hdrift := by
    have hkept : ∀ q, s.world.remote.resources.holds q .directory = true →
        s'.world.remote.resources.holds q .directory = true := fun q hq =>
      henv.stable_holds q .directory s s' hq hdrift
    refine ⟨fun path hpath => henv.stable_hasParent path s s' (h.kept path hpath) hdrift,
      fun directory hd => ?_,?_,henv.stable_parentsExist s s' h.parents hdrift⟩
    · rw [hdrift.memory_eq]
      exact (h.built directory hd).imp_right (hkept _)
    · rw [hdrift.memory_eq]
      exact h.spared
  cut _ h := h.parents
  local_step s e answer s' he hshrunk h hstep := by
    have hcall : ∀ call, e ≠ .client call := fun call hc => by rw [hc] at he; cases he
    have hspawn : ∀ task, e ≠ .spawn task := fun task ht => by rw [ht] at he; cases he
    exact h.of_shrunk (hstep.2.1.remote_eq hcall) hshrunk (h.parents.step hcall hspawn hstep)

/-- With the directory of a file there. -/
theorem keptShrinking_lodgedAt (path : Str) : SyncEngine.KeptShrinking env allowed ParentsExist
    fun s => Lodged before plan s ∧ s.world.remote.hasParent path = true where
  stable := by
    have hk : SyncEngine.KeptShrinking env allowed ParentsExist (Lodged before plan) :=
      keptShrinking_lodged henv
    exact hk.stable.and (henv.stable_hasParent path)
  cut _ h := h.1.parents
  local_step s e answer s' he hshrunk h hstep := by
    have hcall : ∀ call, e ≠ .client call := fun call hc => by rw [hc] at he; cases he
    refine ⟨(keptShrinking_lodged henv).local_step s e answer s' he hshrunk h.1 hstep,?_⟩
    rw [hstep.2.1.remote_eq hcall]
    exact h.2

namespace SyncEngine

variable (config : AppConfig) (root : SyncRootConfig) (runId : Int) (baseSummary : SyncRunSummary)

/-- A file is uploaded only if it is not deleted, so its directory exists. -/
theorem spawnUploads_lodged (batch : List (LocalFileEntry × Bool))
    (hplaced : ∀ upload ∈ batch, Placed before plan upload.1.remotePath upload.1.relativePath) :
    Keeps (env.TraceStep allowed) env.TraceDrift ParentsExist (Lodged before plan)
      (spawnUploads runId baseSummary batch) := by
  have hk : KeptShrinking env allowed ParentsExist (Lodged before plan) := keptShrinking_lodged henv
  induction batch with
  | nil => exact hk.sequential.pure ()
  | cons upload batch ih =>
    obtain ⟨file,isUpdate⟩ := upload
    have hrest := ih fun other ho => hplaced other (List.mem_cons_of_mem _ ho)
    have hfile : KeptShrinking env allowed ParentsExist fun s => Lodged before plan s ∧
        s.world.remote.hasParent file.remotePath = true := keptShrinking_lodgedAt henv _
    have hq := hfile.quiet runId baseSummary
    unfold spawnUploads
    refine TryTriple.bind hk.livePlan fun found => ?_
    refine iteInduction (motive := fun p => TryTriple _ _ _ p _ _ _)
      (fun _ => hrest.pre fun _ h => h.1) fun hlive => ?_
    refine TryTriple.pre (P := fun s => Lodged before plan s ∧
      s.world.remote.hasParent file.remotePath = true) ?_ fun s h => ⟨h.1,
        h.1.hasParent (hplaced _ List.mem_cons_self) (h.2 ▸ Bool.eq_false_iff.mpr hlive)⟩
    refine TryTriple.bind (skipMissing_of hq hfile.register _ _ _) fun skipped => ?_
    refine iteInduction (motive := fun p => TryTriple _ _ _ p _ _ _)
      (fun _ => hrest.pre fun _ h => h.1) fun _ => ?_
    refine TryTriple.bind (hfile.state _) fun operationId => TryTriple.bind ?_ fun _ => hrest
    refine TryTriple.perform hfile.stable hfile.cut fun s _ s' h hstep => ?_
    have hworld : s'.world = { s.world with tasks := s.world.tasks ++
        [{ task := .upload operationId file isUpdate cancelledText }] } := hstep.2.1
    refine h.1.of_shrunk (by rw [hworld]) (.of_eq (by rw [hworld])) (h.1.parents.spawn ?_ hstep)
    rintro made ⟨⟩
    exact h.2

theorem applyUploads_lodged
    (hplaced : ∀ upload ∈ plan.uploads, Placed before plan upload.1.remotePath upload.1.relativePath) :
    TryTriple (env.TraceStep allowed) env.TraceDrift
      (fun s => Lodged before plan s ∧ s.world.tasks = [])
      (applyUploads config root runId baseSummary plan)
      (fun _ s => Lodged before plan s ∧ s.world.tasks = []) ParentsExist ParentsExist := by
  have hk : KeptShrinking env allowed ParentsExist (Lodged before plan) := keptShrinking_lodged henv
  have hq := hk.quiet runId baseSummary
  have hask : ∀ e : Effect SyncMemory, e = .joinNext ∨ e = .dropTasks →
      Keeps (env.TraceStep allowed) env.TraceDrift ParentsExist (Lodged before plan) (perform e) := by
    intro e he
    refine Keeps.perform hk.stable hk.cut fun s answer s' h hstep => ?_
    have hcall : ∀ call, e ≠ .client call := by rcases he with rfl | rfl <;> simp
    have hspawn : ∀ task, e ≠ .spawn task := by rcases he with rfl | rfl <;> simp
    have hmemory : s'.world.memory = s.world.memory :=
      hstep.2.1.memory_eq (by rcases he with rfl | rfl <;> simp)
    exact h.of_shrunk (hstep.2.1.remote_eq hcall) (.of_eq (by rw [hmemory]))
      (h.parents.step hcall hspawn hstep)
  have hkept := applyUploads_of hq root config plan
    (fun batch hb => spawnUploads_lodged henv runId baseSummary batch fun upload hu =>
      hplaced upload (hb hu))
    (joinUploads_of hq root (hask _ (Or.inl rfl)) (hask _ (Or.inr rfl))
      (fun operationId file isUpdate =>
        recordUploaded_of hq (hk.modifySummary _) (fun _ => hk.state _) (fun _ => hk.state _)
          operationId)
      fun outcome failure => recordUploadFailure_of hq root hk.register outcome failure
        fun reasonCode => recordSkippedUpload_of hq (hk.state _) _ reasonCode)
  exact (TryTriple.and hkept ((uploaders_crew runId baseSummary).applyUploads config plan)).weaken
    (fun _ h => ⟨h.1,crew_nil h.2⟩) (fun _ _ h => ⟨h.1,h.2.tasks_nil⟩) (fun _ h => h.1)
    fun _ h => h.1

end SyncEngine

end Uploads

namespace SyncEngine

section Plan

variable {env : Environment RemoteDisk}
  {allowed : Traced RemoteDisk SyncMemory → (e : Effect SyncMemory) → e.Answer → Prop}
  {start : SyncMemory} {plan : RootPlan} {rootLocalPath : LocalPath}
  {before : RemoteDisk} {canonicalRemotePath : Str}

theorem keptLocally_parentsExist (henv : RefusesOtherType env) :
    KeptLocally env allowed ParentsExist ParentsExist where
  stable := henv.stable_parentsExist
  cut _ h := h
  local_step s e answer s' he h hstep := h.step (fun call hc => by rw [hc] at he; cases he)
    (fun task ht => by rw [ht] at he; cases he) hstep

/-- With no task out nothing is about to be made. -/
theorem keptLocally_idle : KeptLocally env allowed ParentsExist fun s => s.world.tasks = [] where
  stable := stable_noTasks
  cut s h := by simp [ParentsExist,h]
  local_step s e answer s' he h hstep :=
    (hstep.2.1.tasks_eq (Effect.isLocal.onTasks he)).trans h

/-- The creates that have run to their end leave every directory where it belongs. -/
theorem lodged_of_creating {depth : Nat} {s : Traced RemoteDisk SyncMemory}
    (hspared : start.currentPlan.isDeletedRelativePath [] = false)
    (h : CreatingWith start plan rootLocalPath (Housed before plan) [] depth 0 s) :
    Lodged before plan s ∧ s.world.tasks = [] := by
  have htasks := h.1.crew.tasks_nil
  refine ⟨⟨h.2.kept,fun directory hd => ?_,h.1.spared.trans hspared,h.2.parentsExist⟩,htasks⟩
  rcases h.1.settled directory hd with hq | ⟨operationId,ht⟩ | hdeleted | hjoined
  · cases hq
  · simp [htasks] at ht
  · exact Or.inl hdeleted
  · exact Or.inr (h.2.joined directory hjoined)

variable (henv : StrictRemote env)
  (hspared : start.currentPlan.isDeletedRelativePath [] = false)
  (hcreates : ∀ directory ∈ plan.createDirectories,
    Placed before plan directory.remotePath directory.relativePath)
  (huploads : ∀ upload ∈ plan.uploads, Placed before plan upload.1.remotePath upload.1.relativePath)
  (hscan : ∀ directory ∈ plan.createDirectories, ScannedBelow rootLocalPath directory)
  (config : AppConfig) (root : SyncRootConfig) (runId : Int) (baseSummary : SyncRunSummary)

include henv hspared hcreates huploads hscan

theorem applyPlan_parentsExist (scanReport : ScanReport) (snapshot : RemoteInventorySnapshot) :
    TryTriple (env.TraceStep allowed) env.TraceDrift
      (CreatingWith start plan rootLocalPath (Housed before plan)
        plan.createDirectories 0 0)
      (applyPlan config root runId baseSummary canonicalRemotePath scanReport plan snapshot)
      (fun _ => ParentsExist) ParentsExist ParentsExist := by
  have hexist : KeptLocally env allowed ParentsExist ParentsExist :=
    keptLocally_parentsExist henv.1
  have hqe := hexist.quiet runId baseSummary
  have hidle : KeptLocally env allowed ParentsExist fun s => s.world.tasks = [] := keptLocally_idle
  have hqi := hidle.quiet runId baseSummary
  have hlodged : KeptShrinking env allowed ParentsExist (Lodged before plan) :=
    keptShrinking_lodged henv.1
  have hx : Companion env allowed start plan rootLocalPath (Housed before plan) :=
    companion_housed henv hspared hcreates
  have hordered : ∀ s, Ordered start plan (Housed before plan) s →
      ParentsExist s := fun s h => h.2.2.parentsExist
  have hcreate : TryTriple (env.TraceStep allowed) env.TraceDrift
      (CreatingWith start plan rootLocalPath (Housed before plan)
        plan.createDirectories 0 0)
      (applyCreateDirectories config root runId baseSummary plan)
      (fun stop s => ParentsExist s ∧ (stop = false → Lodged before plan s ∧ s.world.tasks = []))
      ParentsExist ParentsExist :=
    (applyCreateDirectories_creates hx root runId baseSummary config hscan).weaken (fun _ h => h)
      (fun stop s h => by
        cases stop with
        | true => exact ⟨hordered s h,fun hf => nomatch hf⟩
        | false => exact ⟨h.2.parentsExist,fun _ => lodged_of_creating hspared h⟩) hordered hordered
  have hend : Keeps (env.TraceStep allowed) env.TraceDrift ParentsExist ParentsExist (do
      cleanupStagingFiles scanReport.files
      finishRootCancelledOrFailed root
      return ({ shouldStop := true } : RootExecutionResult)) :=
    hqe.bind (hqe.cleanupStagingFiles _) fun _ =>
      hqe.bind (hqe.finishRootCancelledOrFailed root) fun _ => hqe.pure _
  refine TryTriple.bind hcreate fun stop => ?_
  cases stop with
  | true => exact TryTriple.bind (hqe.isCancelled.pre fun _ h => h.1) fun cancelled => hend
  | false =>
    have hcancelled : TryTriple (env.TraceStep allowed) env.TraceDrift
        (fun s => Lodged before plan s ∧ s.world.tasks = []) isCancelled
        (fun _ s => Lodged before plan s ∧ s.world.tasks = []) ParentsExist ParentsExist :=
      (TryTriple.and (hlodged.quiet runId baseSummary).isCancelled hqi.isCancelled).weaken
        (fun _ h => h) (fun _ _ h => h) (fun _ h => h.1) fun _ h => h.1
    refine TryTriple.bind (hcancelled.pre fun _ h => h.2 rfl) fun cancelled => ?_
    refine iteInduction (motive := fun p => TryTriple _ _ _ p _ _ _)
      (fun _ => hend.pre fun _ h => h.1.parents) fun _ => ?_
    refine TryTriple.bind (Q := fun _ s => s.world.tasks = [])
      ((applyUploads_lodged henv.1 config root runId baseSummary huploads).post fun _ _ h => h.2)
      fun uploaded => ?_
    refine TryTriple.post (Q := fun _ s => s.world.tasks = []) ?_ fun _ => hidle.cut
    refine hqi.bind (hqi.cleanupStagingFiles _) fun _ => hqi.bind hqi.isCancelled fun cancelled => ?_
    refine iteInduction (motive := fun p => Keeps _ _ _ _ p) (fun _ => ?_) fun _ => ?_
    · exact hqi.bind (hqi.finishRootCancelledOrFailed root) fun _ => hqi.pure _
    · refine hqi.bind (hidle.applyDeletes root runId baseSummary _ _ _
        fun path call _ s answer s' h hstep => (hstep.2.1.tasks_eq rfl).trans h) fun _ => ?_
      exact hqi.bind (hqi.finishRootCancelledOrFailed root) fun _ =>
        hqi.bind hqi.persistRootProgress fun _ => hqi.pure _

end Plan

/-- A live plan as it is meant: entries named by their way below the root, which is not deleted,
and for each a directory that is there before, or a live one above it. -/
structure WellPlaced (ext : Externals) (root : SyncRootConfig) (canonicalRemotePath : Str)
    (plan : LiveScanPlan) (before : RemoteDisk) : Prop where
  local_root : pathComponents root.localPath = plan.rootLocalPath
  named : ∀ directory ∈ plan.directories, ScannedBelow plan.rootLocalPath directory
  spared : plan.isDeletedRelativePath [] = false
  home : before.hasParent canonicalRemotePath = true
  placed : ∀ entry ∈ plan.entries, before.hasParent entry.remotePath = true ∨
    ∃ above ∈ rootDirectory ext root canonicalRemotePath :: plan.directories,
      (parentRemotePaths entry.remotePath).getLast? = some above.remotePath ∧
        IsAbove above entry.relativePath

/-- An inventory that says of the live paths what the remote holds there. -/
def FreshInventory (canonicalRemotePath : Str) (plan : LiveScanPlan) (inventory : Inventory)
    (remote : RemoteDisk) : Prop :=
  ∀ live ∈ plan.livePaths canonicalRemotePath, inventory[live.1]? = remote.resources[live.1]?

section Placement

variable {ext : Externals} {root : SyncRootConfig} {canonicalRemotePath : Str}
  {plan : LiveScanPlan} {inventory : Inventory} {before : RemoteDisk}

theorem FreshInventory.holds_iff (h : FreshInventory canonicalRemotePath plan inventory before)
    {directory : LocalDirectoryEntry}
    (hd : directory ∈ rootDirectory ext root canonicalRemotePath :: plan.directories)
    (resourceType : ResourceType) : before.resources.holds directory.remotePath resourceType =
      inventory.holds directory.remotePath resourceType := by
  have hlive : (directory.remotePath,ResourceType.directory) ∈
      plan.livePaths canonicalRemotePath := by
    refine List.mem_append_left _ ?_
    rcases List.mem_cons.mp hd with rfl | hd
    · exact List.mem_cons_self
    · exact List.mem_cons_of_mem _ (List.mem_map.mpr ⟨directory,hd,rfl⟩)
  rw [Inventory.holds,Inventory.holds,h _ hlive]

theorem mem_createDirectories {directory : LocalDirectoryEntry}
    (hd : directory ∈
      (buildRootPlan ext root canonicalRemotePath plan inventory).createDirectories) :
    directory ∈ rootDirectory ext root canonicalRemotePath :: plan.directories := by
  rw [createDirectories_buildRootPlan] at hd
  exact (List.mem_filter.mp hd).1

namespace WellPlaced

variable (h : WellPlaced ext root canonicalRemotePath plan before)

include h

theorem scanned : ∀ directory ∈
    (buildRootPlan ext root canonicalRemotePath plan inventory).createDirectories,
      ScannedBelow plan.rootLocalPath directory := by
  intro directory hd
  rcases List.mem_cons.mp (mem_createDirectories hd) with rfl | hd
  · exact ⟨[],by rw [List.append_nil]; exact h.local_root,rfl⟩
  · exact h.named directory hd

variable (hfresh : FreshInventory canonicalRemotePath plan inventory before)

include hfresh

/-- A live directory that need not be created was there before. -/
theorem placed_in {entry : PlanEntry} (hentry : entry ∈ plan.entries) :
    Placed before (buildRootPlan ext root canonicalRemotePath plan inventory) entry.remotePath
      entry.relativePath := by
  rcases h.placed entry hentry with hthere | ⟨above,habove,hparent,hover⟩
  · exact Or.inl hthere
  cases hheld : inventory.holds above.remotePath .directory with
  | true =>
    exact Or.inl (RemoteDisk.hasParent_of_getLast? hparent
      ((hfresh.holds_iff habove _).trans hheld))
  | false =>
    refine Or.inr ⟨above,?_,hparent,hover⟩
    rw [createDirectories_buildRootPlan]
    exact List.mem_filter.mpr ⟨habove,by rw [hheld]; rfl⟩

theorem creates : ∀ directory ∈
    (buildRootPlan ext root canonicalRemotePath plan inventory).createDirectories,
      Placed before (buildRootPlan ext root canonicalRemotePath plan inventory)
        directory.remotePath directory.relativePath := by
  intro directory hd
  rcases List.mem_cons.mp (mem_createDirectories hd) with rfl | hd
  · exact Or.inl h.home
  · exact h.placed_in hfresh (List.mem_append_left _ (List.mem_map.mpr ⟨directory,hd,rfl⟩))

theorem uploads : ∀ upload ∈
    (buildRootPlan ext root canonicalRemotePath plan inventory).uploads,
      Placed before (buildRootPlan ext root canonicalRemotePath plan inventory)
        upload.1.remotePath upload.1.relativePath := by
  intro upload hu
  rw [uploads_buildRootPlan] at hu
  obtain ⟨file,hf,rfl⟩ := List.mem_map.mp hu
  exact h.placed_in hfresh (List.mem_append_right _
    (List.mem_map.mpr ⟨file,(List.mem_filter.mp hf).1,rfl⟩))

end WellPlaced

/-- A fresh inventory without a conflict, before anything has been done. -/
theorem housed_start {s : Traced RemoteDisk SyncMemory} (htrace : s.trace = [])
    (htasks : s.world.tasks = [])
    (hfresh : FreshInventory canonicalRemotePath plan inventory s.world.remote)
    (hconflict : ∀ live, ¬ InConflict canonicalRemotePath plan inventory live) :
    Housed s.world.remote (buildRootPlan ext root canonicalRemotePath plan inventory) s := by
  refine ⟨fun _ h => h,fun directory hd => ?_,by simp [htasks],by simp [htrace]⟩
  have hd := mem_createDirectories hd
  rw [hfresh.holds_iff hd]
  refine Bool.eq_false_iff.mpr fun hfile => hconflict (directory.remotePath,.directory) ⟨?_,hfile⟩
  refine List.mem_append_left _ ?_
  rcases List.mem_cons.mp hd with rfl | hd
  · exact List.mem_cons_self
  · exact List.mem_cons_of_mem _ (List.mem_map.mpr ⟨directory,hd,rfl⟩)

theorem executePlan_placed {env : Environment RemoteDisk}
    {allowed : Traced RemoteDisk SyncMemory → (e : Effect SyncMemory) → e.Answer → Prop}
    {start : SyncMemory} {snapshot : RemoteInventorySnapshot} (henv : StrictRemote env)
    (hspared : start.currentPlan.isDeletedRelativePath [] = false)
    (hplaced : WellPlaced ext root canonicalRemotePath plan before)
    (hfresh : FreshInventory canonicalRemotePath plan snapshot.resources before)
    (config : AppConfig) (runId : Int) (baseSummary : SyncRunSummary) (scanReport : ScanReport)
    (availableRemoteBytes : Option Nat) {rootPlan : RootPlan}
    (hplan : buildRootPlan ext root canonicalRemotePath plan snapshot.resources = rootPlan) :
    TryTriple (env.TraceStep allowed) env.TraceDrift
      (CreatingWith start rootPlan plan.rootLocalPath (Housed before rootPlan)
        rootPlan.createDirectories 0 0)
      (executePlan ext config root runId baseSummary canonicalRemotePath scanReport plan snapshot
        availableRemoteBytes)
      (fun _ => ParentsExist) ParentsExist ParentsExist := by
  have hcreates := hplaced.creates hfresh
  have huploads := hplaced.uploads hfresh
  have hscanned : ∀ directory ∈ rootPlan.createDirectories,
      ScannedBelow plan.rootLocalPath directory := hplan ▸ hplaced.scanned
  rw [hplan] at hcreates huploads
  have hx : Companion env allowed start rootPlan plan.rootLocalPath (Housed before rootPlan) :=
    companion_housed henv hspared hcreates
  have hk : KeptShrinking env allowed (Ordered start rootPlan (Housed before rootPlan))
      (CreatingWith start rootPlan plan.rootLocalPath (Housed before rootPlan)
        rootPlan.createDirectories 0 0) := keptShrinking_creatingWith hx
  have hreport : ∀ f, Keeps (env.TraceStep allowed) env.TraceDrift _ _ (modifyReport f) := fun f =>
    hk.perform rfl fun g hg => by
      cases hg
      exact fun _ => rfl
  have hq := hk.quiet runId baseSummary
  have hordered : ∀ s, Ordered start rootPlan (Housed before rootPlan) s → ParentsExist s :=
    fun s h => h.2.2.parentsExist
  unfold executePlan
  dsimp only
  rw [hplan]
  split
  · exact (hq.bind (hq.failRootWith _ _ _ _ _) fun _ =>
      hq.bind (hreport _) fun _ => hq.pure _).weaken (fun _ h => h)
      (fun _ _ h => h.2.parentsExist) hordered hordered
  · refine TryTriple.bind ((hreport _).weaken (fun _ h => h) (fun _ _ h => h) hordered hordered)
      fun _ => ?_
    exact applyPlan_parentsExist henv hspared hcreates huploads hscanned config root runId
      baseSummary scanReport snapshot

end Placement

/-- With a fresh inventory that has no conflict, at every moment of a run whatever is about to be
made has its directory, if the canonical root has one and the live plan is well placed. -/
theorem executePlan_parentsExist {env : Environment RemoteDisk} (henv : StrictRemote env)
    (ext : Externals) (config : AppConfig) (root : SyncRootConfig) (runId : Int)
    (baseSummary : SyncRunSummary) (canonicalRemotePath : Str) (scanReport : ScanReport)
    (plan : LiveScanPlan) (snapshot : RemoteInventorySnapshot) (availableRemoteBytes : Option Nat)
    {s s' : Traced RemoteDisk SyncMemory} {result : Option (Except SyncError RootExecutionResult)}
    (htrace : s.trace = []) (htasks : s.world.tasks = [])
    (hmemory : s.world.memory.livePlan = some plan)
    (hfresh : FreshInventory canonicalRemotePath plan snapshot.resources s.world.remote)
    (hconflict : ∀ live, ¬ InConflict canonicalRemotePath plan snapshot.resources live)
    (hplaced : WellPlaced ext root canonicalRemotePath plan s.world.remote)
    (hrun : Exec (env.TraceStep fun _ _ _ => True) env.TraceDrift
      (executePlan ext config root runId baseSummary canonicalRemotePath scanReport plan snapshot
        availableRemoteBytes).run s result s') :
    ParentsExist s' := by
  have hcurrent : s.world.memory.currentPlan = plan := by
    rw [SyncMemory.currentPlan,hmemory]
    rfl
  have hspared : s.world.memory.currentPlan.isDeletedRelativePath [] = false := by
    rw [hcurrent]
    exact hplaced.spared
  have hhoused : Housed s.world.remote
      (buildRootPlan ext root canonicalRemotePath plan snapshot.resources) s :=
    housed_start htrace htasks hfresh hconflict
  have hstart := @creatingWith_start (buildRootPlan ext root canonicalRemotePath plan
    snapshot.resources) _ _ _ htrace htasks hhoused
  rw [hcurrent] at hstart
  have hkept := executePlan_placed henv hspared hplaced hfresh config runId baseSummary scanReport
    availableRemoteBytes rfl s result s' hstart hrun
  match result with
  | none => exact hkept
  | some (.error _) => exact hkept
  | some (.ok _) => exact hkept

section Nested

/-! A directory in a directory with a file in it, to be mirrored two levels below the disk. -/

private def nestedDirectory (names : List Str) : LocalDirectoryEntry :=
  { rootId := "r".toList
    localPath := "r".toList :: names
    relativePath := relativePathOf names
    remotePath := "disk:/B/r/".toList ++ relativePathOf names
    normalizedRemotePath := "disk:/B/r/".toList ++ relativePathOf names }

private def nestedFile : LocalFileEntry :=
  { rootId := "r".toList
    localPath := ["r".toList,"a".toList,"b".toList,"f".toList]
    relativePath := "a/b/f".toList
    remotePath := "disk:/B/r/a/b/f".toList
    normalizedRemotePath := "disk:/B/r/a/b/f".toList
    uploadSource := ["r".toList,"a".toList,"b".toList,"f".toList]
    sizeBytes := 1
    mtimeNs := none
    ctimeNs := none
    fingerprint := {
      kind := .metadata, value := [], fullSha256 := none, localMd5 := none, reusedFromState := false }
    sqliteBackupStagingPath := none }

private def nestedPlan : LiveScanPlan :=
  { rootId := "r".toList
    rootLocalPath := ["r".toList]
    directories := [nestedDirectory ["a".toList],nestedDirectory ["a".toList,"b".toList]]
    files := [nestedFile] }

private def nestedStart (inventory : Inventory) : Traced RemoteDisk SyncMemory where
  world := {
    disk := {
      items := [
        { components := ["r".toList], fileType := .dir, sizeBytes_lt := emptySize_lt },
        { components := ["r".toList,"a".toList], fileType := .dir, sizeBytes_lt := emptySize_lt },
        { components := ["r".toList,"a".toList,"b".toList], fileType := .dir
          sizeBytes_lt := emptySize_lt },
        { components := ["r".toList,"a".toList,"b".toList,"f".toList], fileType := .file
          sizeBytes_lt := emptySize_lt
          content := "1".toList }]
      names_ne := by decide
      nodup := by decide
      closed := by decide +kernel }
    remote := { resources := inventory }
    repository := (({} : Repository).beginRun .manual).2.upsertSyncRoot "r".toList "/r".toList
      "disk:/B".toList "disk:/B/r".toList true
    tasks := []
    cancelled := false
    now := 0
    memory := { report := { runId := 1 }, livePlan := some nestedPlan } }

private def nestedEnvironment : Environment RemoteDisk :=
  strictEnvironment asciiExternals ⟨none,none⟩ fun _ _ => False

private def nestedRoot : SyncRootConfig :=
  { id := "r".toList, name := "r".toList, enabled := true, localPath := "/r".toList }

private def nestedProgram (inventory : Inventory) : Engine RootExecutionResult :=
  executePlan asciiExternals defaultConfig nestedRoot 1 {} "disk:/B/r".toList
    { rootId := "r".toList, files := [nestedFile] } nestedPlan
    { resources := inventory, fromCache := false } none

/-- The first steps of the run on a remote with these resources. -/
private def nestedRun (inventory : Inventory) (n : Nat) :
    Option (Except SyncError RootExecutionResult) × Traced RemoteDisk SyncMemory :=
  (nestedStart inventory).playFor { respond := strictResponder ⟨none,none⟩ } asciiExternals n
    (nestedProgram inventory).run

private theorem exec_nestedRun (inventory : Inventory) (n : Nat) :
    Exec (nestedEnvironment.TraceStep fun _ _ _ => True) nestedEnvironment.TraceDrift
      (nestedProgram inventory).run (nestedStart inventory) (nestedRun inventory n).1
      (nestedRun inventory n).2 := by
  have hallowed : Scenario.Allowed (μ := SyncMemory) { respond := strictResponder ⟨none,none⟩ }
      nestedEnvironment := {
    admits := strictEnvironment_admits asciiExternals ⟨none,none⟩ fun _ _ => False
    cancels := fun _ _ hc => by simp at hc }
  exact Scenario.exec_playFor hallowed n _ _

private theorem nested_free {inventory : Inventory}
    (h : (nestedPlan.livePaths "disk:/B/r".toList).all fun live =>
      !inventory.holds live.1 live.2.other) :
    ∀ live, ¬ InConflict "disk:/B/r".toList nestedPlan inventory live := by
  rintro live ⟨hlive,hother⟩
  have hfree := List.all_eq_true.mp h live hlive
  rw [hother] at hfree
  cases hfree

private theorem nested_wellPlaced {remote : RemoteDisk}
    (home : remote.hasParent "disk:/B/r".toList = true) :
    WellPlaced asciiExternals nestedRoot "disk:/B/r".toList nestedPlan remote where
  local_root := by decide
  named directory hd := by
    rcases List.mem_cons.mp hd with rfl | hd
    · exact ⟨["a".toList],rfl,rfl⟩
    · rw [List.mem_singleton.mp hd]
      exact ⟨["a".toList,"b".toList],rfl,rfl⟩
  spared := by decide
  home := home
  placed entry hentry := by
    have hall : ∀ entry ∈ nestedPlan.entries,
        ∃ above ∈ rootDirectory asciiExternals nestedRoot "disk:/B/r".toList ::
          nestedPlan.directories,
          (parentRemotePaths entry.remotePath).getLast? = some above.remotePath ∧
            IsAbove above entry.relativePath := by decide +kernel
    exact Or.inr (hall entry hentry)

/-- With `disk:/B` there, when the file is about to be uploaded its directory has been made. -/
theorem nestedFile_housed :
    (nestedRun (.ofResources [.ofDirectory "disk:/B".toList]) 49).2.world.tasks.map
        (fun running => running.task.call.makes) = [some ("disk:/B/r/a/b/f".toList,.file)] ∧
      ParentsExist (nestedRun (.ofResources [.ofDirectory "disk:/B".toList]) 49).2 := by
  refine ⟨by decide +kernel,executePlan_parentsExist (strictEnvironment_strict _ _ _) _ _ _ _ _ _ _
    nestedPlan _ _ rfl rfl rfl (fun _ _ => rfl) (nested_free (by decide +kernel))
    (nested_wellPlaced (by decide +kernel)) (exec_nestedRun _ 49)⟩

/-- Without it, the canonical root is about to be made where it cannot be. -/
theorem nestedRoot_unhoused :
    ¬ ∀ (env : Environment RemoteDisk), StrictRemote env → ∀ (config : AppConfig)
      (root : SyncRootConfig) (canonicalRemotePath : Str) (scanReport : ScanReport)
      (plan : LiveScanPlan) (snapshot : RemoteInventorySnapshot)
      (s s' : Traced RemoteDisk SyncMemory)
      (result : Option (Except SyncError RootExecutionResult)), s.trace = [] →
      s.world.tasks = [] → s.world.memory.livePlan = some plan →
      FreshInventory canonicalRemotePath plan snapshot.resources s.world.remote →
      (∀ live, ¬ InConflict canonicalRemotePath plan snapshot.resources live) →
      Exec (env.TraceStep fun _ _ _ => True) env.TraceDrift
        (executePlan asciiExternals config root 1 {} canonicalRemotePath scanReport plan snapshot
          none).run s result s' →
      ParentsExist s' := by
  intro h
  have hparents := h nestedEnvironment (strictEnvironment_strict _ _ _) _ _ _ _ nestedPlan
    { resources := .ofResources [], fromCache := false } (nestedStart (.ofResources [])) _ _ rfl rfl
    rfl (fun _ _ => rfl) (nested_free (by decide +kernel)) (exec_nestedRun (.ofResources []) 9)
  have hend : ∃ running ∈ (nestedRun (.ofResources []) 9).2.world.tasks, running.outcome = none ∧
      running.task.call.makes = some ("disk:/B/r".toList,.directory) ∧
        (nestedRun (.ofResources []) 9).2.world.remote.hasParent "disk:/B/r".toList = false := by
    decide +kernel
  obtain ⟨running,hr,hnone,hmakes,hmissing⟩ := hend
  rw [hparents running hr hnone _ hmakes] at hmissing
  cases hmissing

end Nested

end SyncEngine

end YaDiskSync

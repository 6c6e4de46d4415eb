import YaDiskSync.DeletePartition
import YaDiskSync.PhaseFrame
import YaDiskSync.MissingPath

/-! The order in which the directories of a plan are created. A level is spawned only after the
levels above it have been joined, and what the plan loses meanwhile is in a deleted subtree. -/
namespace YaDiskSync

open Prog SepPath
open LiveScanPlan (isDeletedRelativePath_addDeletedSubtree)

section Queries

variable {E : Type} {A : E → Type} {ε : Type}
  {isDir pathExists : LocalPath → ExceptT ε (Prog E A) Bool} {rootLocalPath localPath : LocalPath}

/-- Whatever the files answer, the loop finds directories on the way up from where it starts. -/
theorem nearestMissingLoop_results (fuel : Nat) {candidate : LocalPath} {nearest : Option LocalPath}
    (hcandidate : candidate <+: localPath)
    (hnearest : ∀ path, nearest = some path → path <+: localPath ∧ path ≠ rootLocalPath) :
    TryResults (fun found => ∀ path, found = some path → path <+: localPath ∧ path ≠ rootLocalPath)
      (nearestMissingLoop pathExists rootLocalPath fuel candidate nearest) := by
  induction fuel generalizing candidate nearest with
  | zero => exact TryResults.pure hnearest
  | succ fuel ih =>
    unfold nearestMissingLoop
    split
    · exact TryResults.pure hnearest
    rename_i hroot
    have hself : ∀ path, some candidate = some path →
        path <+: localPath ∧ path ≠ rootLocalPath := by
      rintro path ⟨⟩
      exact ⟨hcandidate,hroot⟩
    refine TryResults.bind (tryResults_true _) fun found _ => ?_
    split
    · exact TryResults.pure hnearest
    cases hparent : parent? candidate with
    | none => exact TryResults.pure fun _ h => (Option.some_ne_none _ h.symm).elim
    | some parent =>
      have hup : parent <+: localPath := by
        unfold parent? at hparent
        split at hparent
        · cases hparent
        · cases hparent
          exact (List.dropLast_prefix _).trans hcandidate
      dsimp only
      split
      · exact TryResults.pure hself
      refine TryResults.bind (tryResults_true _) fun found _ => ?_
      split
      · exact TryResults.pure hself
      · exact ih hup hself

/-- An entry named by the names below the root. -/
def NamedBelow (rootLocalPath localPath : LocalPath) (relativePath : Str) : Prop :=
  ∃ names, localPath = rootLocalPath ++ names ∧ relativePath = relativePathOf names

/-- A subtree that is found has a prefix, and it covers the entry it was found for. -/
theorem detectDeletedLocalSubtree_results {rootId relativePath remotePath : Str} :
    TryResults (fun found => ∀ subtree, found = some subtree → subtree.relativePrefix ≠ [] ∧
        (NamedBelow rootLocalPath localPath relativePath →
          Covers slash subtree.relativePrefix relativePath))
      (detectDeletedLocalSubtree isDir pathExists rootId rootLocalPath localPath relativePath
        remotePath) := by
  have hnearest : TryResults (fun found => ∀ path, found = some path →
      path <+: localPath ∧ path ≠ rootLocalPath)
      (nearestMissingDirectory isDir pathExists rootLocalPath localPath) := by
    refine TryResults.bind (tryResults_true _) fun found _ => ?_
    split
    · exact nearestMissingLoop_results _ List.prefix_rfl fun _ h => (Option.some_ne_none _ h.symm).elim
    cases hparent : parent? localPath with
    | none => exact TryResults.pure fun _ h => (Option.some_ne_none _ h.symm).elim
    | some parent =>
      have hup : parent <+: localPath := by
        unfold parent? at hparent
        split at hparent
        · cases hparent
        · cases hparent
          exact List.dropLast_prefix _
      exact nearestMissingLoop_results _ hup fun _ h => (Option.some_ne_none _ h.symm).elim
  refine TryResults.bind hnearest fun missing hmissing => ?_
  cases missing with
  | none => exact TryResults.pure fun subtree h => nomatch h
  | some missing =>
    obtain ⟨hpre,hne⟩ := hmissing missing rfl
    dsimp only
    unfold missingRelativePrefix
    by_cases hroot : rootLocalPath <+: missing
    · obtain ⟨top,rfl⟩ := hroot
      rw [if_pos (List.prefix_append _ _),List.drop_left]
      dsimp only
      split
      · exact TryResults.pure fun subtree h => nomatch h
      · rename_i hfront
        have hfront' : relativePathOf top ≠ [] := fun hnil => hfront (List.isEmpty_iff.mpr hnil)
        refine TryResults.pure ?_
        rintro subtree ⟨⟩
        refine ⟨hfront',?_⟩
        rintro ⟨names,rfl,rfl⟩
        obtain ⟨rest,rfl⟩ := (List.prefix_append_right_inj _).mp hpre
        exact covers_relativePathOf (by simpa using hne) hfront' rest
    · rw [if_neg hroot]
      exact TryResults.pure fun subtree h => nomatch h

/-- A live plan that lost entries to deleted subtrees, but not the root. -/
structure LiveScanPlan.Shrunk (plan plan' : LiveScanPlan) : Prop where
  root : plan'.rootLocalPath = plan.rootLocalPath
  deleted : ∀ relativePath, plan.isDeletedRelativePath relativePath = true →
    plan'.isDeletedRelativePath relativePath = true
  spared : plan'.isDeletedRelativePath [] = plan.isDeletedRelativePath []

theorem LiveScanPlan.Shrunk.of_eq {plan plan' : LiveScanPlan} (h : plan' = plan) :
    plan.Shrunk plan' := by
  rw [h]
  exact ⟨rfl,fun _ h => h,rfl⟩

/-- The registered plan has shrunk, and has the entry in a deleted subtree if one was found. -/
theorem registerMissingLocalPath_results (plan : LiveScanPlan) {relativePath remotePath : Str} :
    TryResults (fun result => plan.Shrunk result.1 ∧
        (NamedBelow plan.rootLocalPath localPath relativePath → result.2.isSome = true →
          result.1.isDeletedRelativePath relativePath = true))
      (plan.registerMissingLocalPath isDir pathExists localPath relativePath remotePath) := by
  refine TryResults.bind detectDeletedLocalSubtree_results fun found hfound => ?_
  cases found with
  | none => exact TryResults.pure ⟨.of_eq rfl,fun _ h => nomatch h⟩
  | some subtree =>
    obtain ⟨hfront,hcovers⟩ := hfound subtree rfl
    have hspared : (plan.addDeletedSubtree subtree).1.isDeletedRelativePath [] =
        plan.isDeletedRelativePath [] := by
      rw [Bool.eq_iff_iff,isDeletedRelativePath_addDeletedSubtree,or_iff_left]
      exact fun hc => hfront (List.prefix_nil.mp hc.isPrefix)
    refine TryResults.pure ⟨⟨(LiveScanPlan.addDeletedSubtree_entries plan subtree).2.2.2,
      fun relativePath h => isDeletedRelativePath_addDeletedSubtree.mpr (Or.inl h),hspared⟩,
      fun hnamed _ => ?_⟩
    exact isDeletedRelativePath_addDeletedSubtree.mpr (Or.inr (hcovers hnamed))

end Queries

section Histories

variable {μ : Type}

/-- The directory whose creation a step starts. -/
def Happening.spawnedCreate : Happening μ → Option LocalDirectoryEntry
  | .step (.spawn (.createDirectory directory _)) _ => some directory
  | _ => none

/-- The directory whose creation, finished one way or the other, a step collects. -/
def Happening.joinedCreate : Happening μ → Option LocalDirectoryEntry
  | .step .joinNext (some (.created directory _ _)) => some directory
  | _ => none

/-- The memory after the steps of a trace. -/
def memoryAfter (memory : μ) (trace : List (Happening μ)) : μ :=
  trace.foldl (fun memory happening => match happening with
    | .step (.updateMemory f) _ => f memory
    | _ => memory) memory

/-- A run keeps what holds of every longer history. -/
theorem frame_trace {ρ ε α : Type} {env : Environment ρ}
    {allowed : Traced ρ μ → (e : Effect μ) → e.Answer → Prop} {P D C : Traced ρ μ → Prop}
    {Q : α → Traced ρ μ → Prop} {p : ExceptT ε (Prog (Effect μ) Effect.Answer) α}
    {M : List (Happening μ) → Prop} (hm : ∀ {trace trace'}, trace <+: trace' → M trace → M trace')
    (h : TryTriple (env.TraceStep allowed) env.TraceDrift P p Q D C) :
    TryTriple (env.TraceStep allowed) env.TraceDrift (fun s => P s ∧ M s.trace) p
      (fun a s => Q a s ∧ M s.trace) D C := by
  intro s o s' hs hrun
  have hend := h s o s' hs.1 hrun
  match o with
  | none => exact hend
  | some (.error _) => exact hend
  | some (.ok _) => exact ⟨hend,hm (env.exec_trace hrun) hs.2⟩

theorem memoryAfter_snoc (memory : μ) (trace : List (Happening μ)) (happening : Happening μ) :
    memoryAfter memory (trace ++ [happening]) = match happening with
      | .step (.updateMemory f) _ => f (memoryAfter memory trace)
      | _ => memoryAfter memory trace := by
  rw [memoryAfter,List.foldl_append,List.foldl_cons,List.foldl_nil]
  rfl

theorem memoryAfter_step {ρ : Type} {env : Environment ρ}
    {allowed : Traced ρ μ → (e : Effect μ) → e.Answer → Prop} {memory : μ} {s s' : Traced ρ μ}
    {e : Effect μ} {answer : e.Answer} (h : memoryAfter memory s.trace = s.world.memory)
    (hstep : env.TraceStep allowed s e answer s') :
    memoryAfter memory s'.trace = s'.world.memory := by
  rw [hstep.2.2,memoryAfter_snoc]
  cases e with
  | updateMemory f => exact (congrArg f h).trans hstep.2.1.memory_update.symm
  | _ => exact h.trans (hstep.2.1.memory_eq fun f hf => nomatch hf).symm

end Histories

/-- A directory is above an entry by the names below the root, which is above all others. -/
def IsAbove (above : LocalDirectoryEntry) (relativePath : Str) : Prop :=
  Beneath slash above.relativePath relativePath ∨ above.relativePath = [] ∧ relativePath ≠ []

instance {above : LocalDirectoryEntry} {relativePath : Str} :
    Decidable (IsAbove above relativePath) := by
  unfold IsAbove
  infer_instance

theorem IsAbove.depth_lt {above : LocalDirectoryEntry} {relativePath : Str}
    (h : IsAbove above relativePath) :
    relativeDepth above.relativePath < relativeDepth relativePath := by
  unfold relativeDepth
  rcases h with h | ⟨hnil,hne⟩
  · obtain ⟨tail,htail⟩ := beneath_iff.mp h
    have hne : relativePath.isEmpty = false := by simp [htail]
    have hcount : above.relativePath.count slash < relativePath.count slash := by
      rw [htail,List.count_append,List.count_cons_self]
      omega
    rw [hne,if_neg Bool.false_ne_true]
    split <;> omega
  · rw [hnil,List.isEmpty_nil,if_pos rfl,if_neg (by simpa using hne)]
    omega

/-- What is below a directory of a deleted subtree is in it, if the root is not. -/
theorem IsAbove.isDeleted {above : LocalDirectoryEntry} {relativePath : Str} {plan : LiveScanPlan}
    (h : IsAbove above relativePath) (hspared : plan.isDeletedRelativePath [] = false)
    (hdeleted : plan.isDeletedRelativePath above.relativePath = true) :
    plan.isDeletedRelativePath relativePath = true := by
  rcases h with h | ⟨hnil,-⟩
  · obtain ⟨subtree,hs,hc⟩ := isRelativePathDeleted_iff.mp hdeleted
    exact isRelativePathDeleted_iff.mpr ⟨subtree,hs,hc.trans h.covers⟩
  · rw [hnil,hspared] at hdeleted
    cases hdeleted

/-- The live plan a run works on. -/
def SyncMemory.currentPlan (memory : SyncMemory) : LiveScanPlan :=
  memory.livePlan.getD { rootId := [], rootLocalPath := [] }

/-- Whenever a creation starts, those of the planned directories above it have been collected,
but for directories of subtrees deleted by then. -/
def ParentsFirst (start : SyncMemory) (plan : RootPlan) (trace : List (Happening SyncMemory)) :
    Prop :=
  ∀ past directory operationId answer later,
    trace = past ++ .step (.spawn (.createDirectory directory operationId)) answer :: later →
      ∀ above ∈ plan.createDirectories, IsAbove above directory.relativePath →
        (memoryAfter start past).currentPlan.isDeletedRelativePath above.relativePath = false →
          above ∈ past.filterMap Happening.joinedCreate

variable {start : SyncMemory} {plan : RootPlan} {trace : List (Happening SyncMemory)}

theorem ParentsFirst.snoc {happening : Happening SyncMemory} (h : ParentsFirst start plan trace)
    (hlast : ∀ directory operationId answer,
      happening = .step (.spawn (.createDirectory directory operationId)) answer →
        ∀ above ∈ plan.createDirectories, IsAbove above directory.relativePath →
          (memoryAfter start trace).currentPlan.isDeletedRelativePath above.relativePath = false →
            above ∈ trace.filterMap Happening.joinedCreate) :
    ParentsFirst start plan (trace ++ [happening]) := by
  intro past directory operationId answer later heq
  rcases snoc_eq_append_cons heq with ⟨rfl,he,_⟩ | ⟨front,_,htrace⟩
  · exact hlast directory operationId answer he.symm
  · exact h past directory operationId answer front htrace

/-- The planned directories above an entry have been collected, unless the root was deleted. -/
def Ready (start : SyncMemory) (plan : RootPlan) (relativePath : Str)
    (trace : List (Happening SyncMemory)) : Prop :=
  start.currentPlan.isDeletedRelativePath [] = false →
    ∀ above ∈ plan.createDirectories, IsAbove above relativePath →
      above ∈ trace.filterMap Happening.joinedCreate

theorem Ready.mono {relativePath : Str} {trace' : List (Happening SyncMemory)}
    (hpre : trace <+: trace') (h : Ready start plan relativePath trace) :
    Ready start plan relativePath trace' :=
  fun hspared above habove hover =>
    (hpre.filterMap _).subset (h hspared above habove hover)

/-- The creates of a plan under way: what is queued, what is out, and what is done. -/
structure Creating {ρ : Type} (start : SyncMemory) (plan : RootPlan) (rootLocalPath : LocalPath)
    (queue : List LocalDirectoryEntry) (depth count : Nat) (s : Traced ρ SyncMemory) : Prop where
  crew : Crew Task.IsCreate count s
  memory : memoryAfter start s.trace = s.world.memory
  root : s.world.memory.currentPlan.rootLocalPath = rootLocalPath
  spared : s.world.memory.currentPlan.isDeletedRelativePath [] =
    start.currentPlan.isDeletedRelativePath []
  order : ParentsFirst start plan s.trace
  once : (s.trace.filterMap Happening.spawnedCreate ++ queue).Subperm plan.createDirectories
  level : ∀ directory operationId,
    Task.createDirectory directory operationId ∈ s.world.tasks.map RunningTask.task →
      relativeDepth directory.relativePath = depth
  settled : ∀ directory ∈ plan.createDirectories, directory ∈ queue ∨
    (∃ operationId, Task.createDirectory directory operationId ∈
      s.world.tasks.map RunningTask.task) ∨
    s.world.memory.currentPlan.isDeletedRelativePath directory.relativePath = true ∨
    directory ∈ s.trace.filterMap Happening.joinedCreate

namespace Creating

variable {ρ : Type} {env : Environment ρ}
  {allowed : Traced ρ SyncMemory → (e : Effect SyncMemory) → e.Answer → Prop}
  {rootLocalPath : LocalPath} {queue : List LocalDirectoryEntry} {depth count : Nat}
  {s s' : Traced ρ SyncMemory}

theorem perm {queue' : List LocalDirectoryEntry}
    (h : Creating start plan rootLocalPath queue depth count s) (hp : queue.Perm queue') :
    Creating start plan rootLocalPath queue' depth count s :=
  { h with
    once := (List.Perm.append_left _ hp.symm).subperm.trans h.once
    settled := fun directory hd => (h.settled directory hd).imp_left hp.mem_iff.mp }

theorem mono {count' : Nat} (h : Creating start plan rootLocalPath queue depth count s)
    (hle : count ≤ count') : Creating start plan rootLocalPath queue depth count' s :=
  { h with crew := h.crew.mono hle }

/-- With no task out the next level may start. -/
theorem descend {depth' : Nat} (h : Creating start plan rootLocalPath queue depth 0 s) :
    Creating start plan rootLocalPath queue depth' 0 s :=
  { h with level := fun directory operationId hm => by simp [h.crew.tasks_nil] at hm }

/-- A queued directory of a deleted subtree is passed over. -/
theorem drop {directory : LocalDirectoryEntry}
    (h : Creating start plan rootLocalPath (directory :: queue) depth count s)
    (hdeleted : s.world.memory.currentPlan.isDeletedRelativePath directory.relativePath = true) :
    Creating start plan rootLocalPath queue depth count s := by
  refine { h with once := ?_, settled := fun other ho => ?_ }
  · exact ((List.sublist_cons_self directory queue).append_left _).subperm.trans h.once
  · rcases h.settled other ho with hq | hrest
    · rcases List.mem_cons.mp hq with rfl | hq
      · exact Or.inr (Or.inr (Or.inl hdeleted))
      · exact Or.inl hq
    · exact Or.inr hrest

theorem filter (h : Creating start plan rootLocalPath queue depth count s) :
    Creating start plan rootLocalPath (queue.filter fun directory =>
      !s.world.memory.currentPlan.isDeletedRelativePath directory.relativePath) depth count s := by
  refine { h with once := ?_, settled := fun other ho => ?_ }
  · exact (List.filter_sublist.append_left _).subperm.trans h.once
  · rcases h.settled other ho with hq | hrest
    · by_cases hdeleted :
          s.world.memory.currentPlan.isDeletedRelativePath other.relativePath = true
      · exact Or.inr (Or.inr (Or.inl hdeleted))
      · exact Or.inl (List.mem_filter.mpr ⟨hq,by simpa using hdeleted⟩)
    · exact Or.inr hrest

/-- What neither starts nor collects a creation keeps the order. -/
theorem append {happening : Happening SyncMemory}
    (h : Creating start plan rootLocalPath queue depth count s)
    (hcrew : Crew Task.IsCreate count s')
    (hmemory : memoryAfter start s'.trace = s'.world.memory)
    (htrace : s'.trace = s.trace ++ [happening])
    (hspawn : happening.spawnedCreate = none)
    (htasks : s'.world.tasks.map RunningTask.task = s.world.tasks.map RunningTask.task)
    (hplan : s.world.memory.currentPlan.Shrunk s'.world.memory.currentPlan) :
    Creating start plan rootLocalPath queue depth count s' := by
  refine ⟨hcrew,hmemory,hplan.root.trans h.root,hplan.spared.trans h.spared,?_,?_,?_,
    fun directory hd => ?_⟩
  · rw [htrace]
    refine h.order.snoc fun directory operationId answer he => ?_
    rw [he] at hspawn
    cases hspawn
  · rw [htrace,List.filterMap_append,List.filterMap_cons_none hspawn,List.filterMap_nil,
      List.append_nil]
    exact h.once
  · rw [htasks]
    exact h.level
  · rw [htasks,htrace,List.filterMap_append]
    exact (h.settled directory hd).imp_right fun hrest => hrest.imp_right fun hrest =>
      hrest.imp (hplan.deleted _) fun hm => List.mem_append_left _ hm

theorem stable : Stable env.TraceDrift
    (Creating (ρ := ρ) start plan rootLocalPath queue depth count) := by
  intro s s' h hdrift
  have hcrew := stable_crew s s' h.crew hdrift
  cases hdrift with
  | land ht hl =>
    refine h.append hcrew ?_ rfl rfl (by simp [ht]) (.of_eq rfl)
    rw [memoryAfter_snoc]
    exact h.memory
  | disk _ => exact { h with crew := hcrew }
  | cancel _ => exact { h with crew := hcrew }
  | tick _ => exact { h with crew := hcrew }

/-- A step that leaves the tasks alone. -/
theorem calm (h : Creating start plan rootLocalPath queue depth count s) {e : Effect SyncMemory}
    {answer : e.Answer} (he : e.onTasks = false) (hstep : env.TraceStep allowed s e answer s')
    (hplan : s.world.memory.currentPlan.Shrunk s'.world.memory.currentPlan) :
    Creating start plan rootLocalPath queue depth count s' := by
  refine h.append (h.crew.of_step he hstep) (memoryAfter_step h.memory hstep) hstep.2.2 ?_
    (by rw [hstep.2.1.tasks_eq he]) hplan
  cases e <;> first | rfl | cases he

/-- Where a creation starts, the directories above it are collected or deleted. -/
theorem above_joined {directory above : LocalDirectoryEntry}
    (h : Creating start plan rootLocalPath (directory :: queue) depth count s)
    (hdepth : relativeDepth directory.relativePath = depth)
    (hqueue : ∀ other ∈ queue, depth ≤ relativeDepth other.relativePath)
    (habove : above ∈ plan.createDirectories)
    (hover : IsAbove above directory.relativePath)
    (hlive : s.world.memory.currentPlan.isDeletedRelativePath above.relativePath = false) :
    above ∈ s.trace.filterMap Happening.joinedCreate := by
  have hlt := hover.depth_lt
  rcases h.settled above habove with hq | ⟨operationId,htask⟩ | hdeleted | hjoined
  · rcases List.mem_cons.mp hq with rfl | hq
    · omega
    · have := hqueue above hq
      omega
  · have := h.level above operationId htask
    omega
  · rw [hlive] at hdeleted
    cases hdeleted
  · exact hjoined

/-- When a directory that is not deleted is taken from the queue, those above it are
collected. -/
theorem ready {directory : LocalDirectoryEntry}
    (h : Creating start plan rootLocalPath (directory :: queue) depth count s)
    (hdepth : relativeDepth directory.relativePath = depth)
    (hqueue : ∀ other ∈ queue, depth ≤ relativeDepth other.relativePath)
    (hlive : s.world.memory.currentPlan.isDeletedRelativePath directory.relativePath = false) :
    Ready start plan directory.relativePath s.trace := by
  intro hspared above habove hover
  refine h.above_joined hdepth hqueue habove hover (Bool.eq_false_iff.mpr fun hdeleted => ?_)
  rw [hover.isDeleted (h.spared.trans hspared) hdeleted] at hlive
  cases hlive

theorem spawn {directory : LocalDirectoryEntry} {operationId : Int} {answer : Unit}
    (h : Creating start plan rootLocalPath (directory :: queue) depth count s)
    (hdepth : relativeDepth directory.relativePath = depth)
    (hqueue : ∀ other ∈ queue, depth ≤ relativeDepth other.relativePath)
    (hstep : env.TraceStep allowed s (.spawn (.createDirectory directory operationId)) answer s') :
    Creating start plan rootLocalPath queue depth (count+1) s' := by
  have hworld : s'.world = { s.world with
      tasks := s.world.tasks ++ [{ task := .createDirectory directory operationId }] } := hstep.2.1
  have hmemory : s'.world.memory = s.world.memory := by rw [hworld]
  have htasks : s'.world.tasks.map RunningTask.task =
      s.world.tasks.map RunningTask.task ++ [.createDirectory directory operationId] := by
    rw [hworld]
    simp
  have hkind : Task.IsCreate (.createDirectory directory operationId) := trivial
  refine ⟨h.crew.spawn hkind hstep,memoryAfter_step h.memory hstep,hmemory ▸ h.root,
    hmemory ▸ h.spared,?_,?_,?_,?_⟩
  · rw [hstep.2.2]
    refine h.order.snoc fun directory' operationId' answer' he above habove hover hlive => ?_
    cases he
    exact h.above_joined hdepth hqueue habove hover (h.memory ▸ hlive)
  · rw [hstep.2.2,List.filterMap_append]
    have hcons : ([.step (.spawn (.createDirectory directory operationId)) answer] :
        List (Happening SyncMemory)).filterMap Happening.spawnedCreate = [directory] := rfl
    rw [hcons,List.append_assoc]
    exact h.once
  · intro other operationId' hm
    rw [htasks] at hm
    rcases List.mem_append.mp hm with hm | hm
    · exact h.level other operationId' hm
    · cases List.mem_singleton.mp hm
      exact hdepth
  · intro other ho
    rw [htasks,hmemory,hstep.2.2,List.filterMap_append]
    rcases h.settled other ho with hq | ⟨operationId',htask⟩ | hdeleted | hjoined
    · rcases List.mem_cons.mp hq with rfl | hq
      · exact Or.inr (Or.inl ⟨operationId,by simp⟩)
      · exact Or.inl hq
    · exact Or.inr (Or.inl ⟨operationId',List.mem_append_left _ htask⟩)
    · exact Or.inr (Or.inr (Or.inl hdeleted))
    · exact Or.inr (Or.inr (Or.inr (List.mem_append_left _ hjoined)))

/-- A creation that is collected counts for its directory. -/
theorem join {joined : Option TaskOutcome}
    (h : Creating start plan rootLocalPath queue depth (count+1) s)
    (hstep : env.TraceStep allowed s .joinNext joined s') :
    match joined with
      | none => Creating start plan rootLocalPath queue depth 0 s'
      | some (.created ..) => Creating start plan rootLocalPath queue depth count s'
      | some (.uploaded _) => False := by
  have hjoin := h.crew.join hstep
  have hmem := memoryAfter_step h.memory hstep
  rcases hstep.2.1 with ⟨rfl,ht,hw⟩ | ⟨before,task,outcome,after,rfl,ht,hw⟩
  · have hcrew : Crew Task.IsCreate 0 s' := crew_nil (by rw [hw]; exact ht)
    have hnone : Creating start plan rootLocalPath queue depth 0 s :=
      { h with crew := crew_nil ht }
    exact hnone.append hcrew hmem hstep.2.2 rfl (by rw [hw]) (.of_eq (by rw [hw]))
  · have hrunning : ({ task, outcome := some outcome } : RunningTask) ∈ s.world.tasks := by
      simp [ht]
    have hcrew : Crew Task.IsCreate count s' := by
      cases hjoin with
      | some _ _ _ _ hcrew => exact hcrew
    have hkind := h.crew.kind _ hrunning
    cases task with
    | upload => exact hkind.elim
    | createDirectory directory operationId =>
      obtain ⟨result,rfl⟩ := h.crew.yields _ hrunning _ rfl
      have hmemory : s'.world.memory = s.world.memory := by rw [hw]
      have htasks : (s.world.tasks.map RunningTask.task).Perm
          (.createDirectory directory operationId :: s'.world.tasks.map RunningTask.task) := by
        rw [ht,hw]
        simp only [List.map_append,List.map_cons]
        exact List.perm_middle
      refine ⟨hcrew,hmem,hmemory ▸ h.root,hmemory ▸ h.spared,?_,?_,?_,?_⟩
      · rw [hstep.2.2]
        exact h.order.snoc fun _ _ _ he => nomatch he
      · rw [hstep.2.2,List.filterMap_append,List.filterMap_cons_none rfl,List.filterMap_nil,
          List.append_nil]
        exact h.once
      · intro other operationId' hm
        exact h.level other operationId' (htasks.mem_iff.mpr (List.mem_cons_of_mem _ hm))
      · intro other ho
        rw [hmemory,hstep.2.2,List.filterMap_append]
        rcases h.settled other ho with hq | ⟨operationId',htask⟩ | hdeleted | hjoined
        · exact Or.inl hq
        · rcases List.mem_cons.mp (htasks.mem_iff.mp htask) with heq | hm
          · cases heq
            exact Or.inr (Or.inr (Or.inr (List.mem_append_right _ List.mem_cons_self)))
          · exact Or.inr (Or.inl ⟨operationId',hm⟩)
        · exact Or.inr (Or.inr (Or.inl hdeleted))
        · exact Or.inr (Or.inr (Or.inr (List.mem_append_left _ hjoined)))

end Creating

/-- What is true of a run whose creates are under way, whatever else the run does. -/
structure Companion {ρ : Type} (env : Environment ρ)
    (allowed : Traced ρ SyncMemory → (e : Effect SyncMemory) → e.Answer → Prop)
    (start : SyncMemory) (plan : RootPlan) (rootLocalPath : LocalPath)
    (X : Traced ρ SyncMemory → Prop) : Prop where
  stable : Stable env.TraceDrift X
  local_step : ∀ {s s' e answer}, e.isLocal = true → X s →
    env.TraceStep allowed s e answer s' → X s'
  spawn : ∀ {s s' directory queue depth count operationId answer},
    Creating start plan rootLocalPath (directory :: queue) depth count s →
    relativeDepth directory.relativePath = depth →
    (∀ other ∈ queue, depth ≤ relativeDepth other.relativePath) →
    Ready start plan directory.relativePath s.trace → X s →
    env.TraceStep allowed s (.spawn (.createDirectory directory operationId)) answer s' → X s'
  join : ∀ {s s' joined}, X s → env.TraceStep allowed s .joinNext joined s' → X s'
  drop : ∀ {s s' answer}, X s → env.TraceStep allowed s .dropTasks answer s' → X s'

namespace SyncEngine

section Register

variable {ρ : Type} {env : Environment ρ}
  {allowed : Traced ρ SyncMemory → (e : Effect SyncMemory) → e.Answer → Prop}
  {P C : Traced ρ SyncMemory → Prop} {Q : Option DeletedLocalSubtree → Traced ρ SyncMemory → Prop}

theorem livePlan_leads (hstable : Stable env.TraceDrift P) (hcut : ∀ s, P s → C s)
    (hread : ∀ s answer s', P s → env.TraceStep allowed s .readMemory answer s' → P s') :
    TryTriple (env.TraceStep allowed) env.TraceDrift P livePlan
      (fun found s => P s ∧ found = s.world.memory.currentPlan) C C := by
  have hmemory : TryTriple (env.TraceStep allowed) env.TraceDrift P memory
      (fun found s => P s ∧ found = s.world.memory) C C :=
    TryTriple.perform hstable hcut fun s answer s' h hstep =>
      ⟨hread s answer s' h hstep,hstep.2.1.1.trans (congrArg World.memory hstep.2.1.2).symm⟩
  exact TryTriple.bind hmemory fun found => TryTriple.pure fun s h => ⟨h.1,by rw [h.2]; rfl⟩

/-- An entry is looked up, and the plan without what has gone is stored. -/
theorem register_leads {localPath : LocalPath} {relativePath remotePath : Str}
    (hstable : Stable env.TraceDrift P) (hcut : ∀ s, P s → C s)
    (hquery : ∀ s e answer s', e.isLocal = true → (∀ f, e ≠ .updateMemory f) → P s →
      env.TraceStep allowed s e answer s' → P s')
    (hset : ∀ s (result : LiveScanPlan × Option DeletedLocalSubtree) s', P s →
      s.world.memory.currentPlan.Shrunk result.1 →
      (NamedBelow s.world.memory.currentPlan.rootLocalPath localPath relativePath →
        result.2.isSome = true → result.1.isDeletedRelativePath relativePath = true) →
      s'.world.memory.currentPlan = result.1 →
      env.TraceStep allowed s (.updateMemory fun memory =>
        { memory with livePlan := some result.1 }) () s' → Q result.2 s') :
    TryTriple (env.TraceStep allowed) env.TraceDrift P
      (registerMissingLocalPath localPath relativePath remotePath) Q C C := by
  have hmemory (memory : SyncMemory) :
      Stable env.TraceDrift fun s : Traced ρ SyncMemory => s.world.memory = memory :=
    Stable.of_eq (fun _ _ hdrift => hdrift.memory_eq) (· = memory)
  unfold registerMissingLocalPath
  refine TryTriple.bind (Q := fun found s => ∃ memory, found = memory.currentPlan ∧
      P s ∧ s.world.memory = memory)
    ((livePlan_leads hstable hcut fun s answer s' => hquery s _ answer s' rfl (by simp)).post
      fun found s h => ⟨_,h.2,h.1,rfl⟩) fun found => ?_
  refine TryTriple.exists_pre fun memory => TryTriple.of_pure (fun _ h => h.1) ?_
  rintro rfl
  have hask {e : Effect SyncMemory} (he : e.isLocal = true) (hf : ∀ f, e ≠ .updateMemory f) :
      Keeps (env.TraceStep allowed) env.TraceDrift C (fun s => P s ∧ s.world.memory = memory)
        (perform e) :=
    Keeps.perform (hstable.and (hmemory memory)) (fun s h => hcut s h.1)
      fun s answer s' h hstep => ⟨hquery s e answer s' he hf h.1 hstep,
        (hstep.2.1.memory_eq hf).trans h.2⟩
  have hkept : Sequential fun ⦃α⦄ (p : Engine α) => Keeps (env.TraceStep allowed) env.TraceDrift C
      (fun s => P s ∧ s.world.memory = memory) p := sequential_keeps fun s h => hcut s h.1
  have hregister := (registerMissingLocalPath_of hkept.toComposable
    (fun path => hask (e := .isDir path) rfl (by simp))
    (fun path => hask (e := .pathExists path) rfl (by simp)) memory.currentPlan localPath
    relativePath remotePath).results (registerMissingLocalPath_results memory.currentPlan)
  refine TryTriple.bind (hregister.pre fun _ h => h.2) fun result =>
    TryTriple.of_pure (fun _ h => h.1) ?_
  rintro ⟨hshrunk,hfound⟩
  refine TryTriple.bind (TryTriple.pre ?_ fun _ h => h.2) fun _ => TryTriple.pure fun _ h => h
  refine TryTriple.perform (hstable.and (hmemory memory)) (fun s h => hcut s h.1)
    fun s _ s' h hstep => ?_
  obtain ⟨hp,rfl⟩ := h
  refine hset s result s' hp hshrunk hfound ?_ hstep
  rw [hstep.2.1.memory_update]
  rfl

/-- What the environment and local steps keep as long as the live plan at most shrinks; `C` holds
wherever it does. -/
structure KeptShrinking (env : Environment ρ)
    (allowed : Traced ρ SyncMemory → (e : Effect SyncMemory) → e.Answer → Prop)
    (C B : Traced ρ SyncMemory → Prop) : Prop where
  stable : Stable env.TraceDrift B
  cut : ∀ s, B s → C s
  local_step : ∀ s e answer s', e.isLocal = true →
    s.world.memory.currentPlan.Shrunk s'.world.memory.currentPlan → B s →
      env.TraceStep allowed s e answer s' → B s'

namespace KeptShrinking

variable {B : Traced ρ SyncMemory → Prop} (hb : KeptShrinking env allowed C B)

include hb

theorem sequential : Sequential fun ⦃α⦄ (p : Engine α) =>
    Keeps (env.TraceStep allowed) env.TraceDrift C B p :=
  sequential_keeps hb.cut

theorem query {s s' : Traced ρ SyncMemory} {e : Effect SyncMemory} {answer : e.Answer}
    (he : e.isLocal = true) (hf : ∀ f, e ≠ .updateMemory f) (h : B s)
    (hstep : env.TraceStep allowed s e answer s') : B s' :=
  hb.local_step s e answer s' he (.of_eq (congrArg SyncMemory.currentPlan
    (hstep.2.1.memory_eq hf))) h hstep

theorem perform {e : Effect SyncMemory} (he : e.isLocal = true)
    (hf : ∀ f, e = .updateMemory f → ∀ memory, (f memory).livePlan = memory.livePlan) :
    Keeps (env.TraceStep allowed) env.TraceDrift C B (SyncEngine.perform e) := by
  refine Keeps.perform hb.stable hb.cut fun s answer s' h hstep =>
    hb.local_step s e answer s' he (.of_eq ?_) h hstep
  unfold SyncMemory.currentPlan
  cases e with
  | updateMemory f => rw [hstep.2.1.memory_update,hf f rfl]
  | _ => rw [hstep.2.1.memory_eq fun f he => nomatch he]

theorem state (call : StateCall) :
    Keeps (env.TraceStep allowed) env.TraceDrift C B (SyncEngine.state call) :=
  sequential_state hb.sequential (hb.perform rfl fun _ he => nomatch he)

theorem modifySummary (f : RootSyncSummary → RootSyncSummary) :
    Keeps (env.TraceStep allowed) env.TraceDrift C B (SyncEngine.modifySummary f) :=
  hb.perform rfl fun g hg => by
    cases hg
    exact fun _ => rfl

theorem quiet (runId : Int) (baseSummary : SyncRunSummary) :
    Quiet runId baseSummary fun ⦃α⦄ (p : Engine α) =>
      Keeps (env.TraceStep allowed) env.TraceDrift C B p := by
  have hread : Keeps (env.TraceStep allowed) env.TraceDrift C B
      (SyncEngine.perform (.readMemory : Effect SyncMemory)) :=
    hb.perform rfl fun f he => nomatch he
  exact {
    toComposable := hb.sequential.toComposable
    report := fun _ => hb.state _
    readMemory := hread
    modifySummary := fun f _ => hb.modifySummary f
    isCancelled := hb.perform rfl fun f he => nomatch he
    state := fun _ => hb.state _
    persistRootProgress := hb.sequential.bind hread fun memory => hb.state _
    cleanupStagingFiles := cleanupStagingFiles_of hb.sequential fun path =>
      hb.perform rfl fun f he => nomatch he
    fileMetadata := fun path => hb.perform rfl fun f he => nomatch he }

theorem livePlan : TryTriple (env.TraceStep allowed) env.TraceDrift B livePlan
    (fun found s => B s ∧ found = s.world.memory.currentPlan) C C :=
  livePlan_leads hb.stable hb.cut fun _ _ _ => hb.query rfl (by simp)

theorem register (localPath : LocalPath) (relativePath remotePath : Str) :
    Keeps (env.TraceStep allowed) env.TraceDrift C B
      (registerMissingLocalPath localPath relativePath remotePath) :=
  register_leads hb.stable hb.cut (fun _ _ _ _ => hb.query) fun s _ s' h hshrunk _ hplan hstep =>
    hb.local_step s _ _ s' rfl (hplan ▸ hshrunk) h hstep

end KeptShrinking

end Register

section Creates

variable {ρ : Type} {env : Environment ρ}
  {allowed : Traced ρ SyncMemory → (e : Effect SyncMemory) → e.Answer → Prop}
  {rootLocalPath : LocalPath} {X : Traced ρ SyncMemory → Prop}

/-- The creates are in order, and the company holds. -/
def Ordered (start : SyncMemory) (plan : RootPlan) (X : Traced ρ SyncMemory → Prop)
    (s : Traced ρ SyncMemory) : Prop :=
  ParentsFirst start plan s.trace ∧
    (s.trace.filterMap Happening.spawnedCreate).Subperm plan.createDirectories ∧ X s

/-- Creates under way, in company. -/
def CreatingWith (start : SyncMemory) (plan : RootPlan) (rootLocalPath : LocalPath)
    (X : Traced ρ SyncMemory → Prop) (queue : List LocalDirectoryEntry) (depth count : Nat)
    (s : Traced ρ SyncMemory) : Prop :=
  Creating start plan rootLocalPath queue depth count s ∧ X s

theorem CreatingWith.ordered {queue : List LocalDirectoryEntry} {depth count : Nat}
    {s : Traced ρ SyncMemory} (h : CreatingWith start plan rootLocalPath X queue depth count s) :
    Ordered start plan X s :=
  ⟨h.1.order,(List.sublist_append_left _ _).subperm.trans h.1.once,h.2⟩

/-- A part of the phase, from one state of the creates to another. -/
abbrev Creates (env : Environment ρ)
    (allowed : Traced ρ SyncMemory → (e : Effect SyncMemory) → e.Answer → Prop)
    (start : SyncMemory) (plan : RootPlan) (X : Traced ρ SyncMemory → Prop)
    (P : Traced ρ SyncMemory → Prop) {α : Type} (p : Engine α)
    (Q : α → Traced ρ SyncMemory → Prop) : Prop :=
  TryTriple (env.TraceStep allowed) env.TraceDrift P p Q (Ordered start plan X)
    (Ordered start plan X)

variable (hx : Companion env allowed start plan rootLocalPath X)
  {queue : List LocalDirectoryEntry} {depth count : Nat}

include hx

theorem keptShrinking_creatingWith : KeptShrinking env allowed (Ordered start plan X)
    (CreatingWith start plan rootLocalPath X queue depth count) where
  stable := Creating.stable.and hx.stable
  cut _ h := h.ordered
  local_step _ _ _ _ he hshrunk h hstep :=
    ⟨h.1.calm (Effect.isLocal.onTasks he) hstep hshrunk,hx.local_step he h.2 hstep⟩

/-- The entry registered as missing is in a deleted subtree. -/
theorem register_creates {directory : LocalDirectoryEntry}
    (hscan : NamedBelow rootLocalPath directory.localPath directory.relativePath) :
    Creates env allowed start plan X (CreatingWith start plan rootLocalPath X queue depth count)
      (registerMissingLocalPath directory.localPath directory.relativePath directory.remotePath)
      fun found s => CreatingWith start plan rootLocalPath X queue depth count s ∧
        (found.isSome = true → s.world.memory.currentPlan.isDeletedRelativePath
          directory.relativePath = true) := by
  have hk := @keptShrinking_creatingWith start plan ρ env allowed rootLocalPath X hx queue depth count
  refine register_leads hk.stable hk.cut (fun _ _ _ _ => hk.query)
    fun s result s' h hshrunk hfound hplan hstep =>
      ⟨hk.local_step s _ _ s' rfl (hplan ▸ hshrunk) h hstep,?_⟩
  rw [hplan]
  exact hfound (h.1.root.symm ▸ hscan)

omit hx in
theorem CreatingWith.perm {queue' : List LocalDirectoryEntry} {s : Traced ρ SyncMemory}
    (h : CreatingWith start plan rootLocalPath X queue depth count s) (hp : queue.Perm queue') :
    CreatingWith start plan rootLocalPath X queue' depth count s :=
  ⟨h.1.perm hp,h.2⟩

variable (root : SyncRootConfig) (runId : Int) (baseSummary : SyncRunSummary)

/-- The entries whose relative path is made of the names below the root. -/
def ScannedBelow (rootLocalPath : LocalPath) (directory : LocalDirectoryEntry) : Prop :=
  NamedBelow rootLocalPath directory.localPath directory.relativePath

theorem skipMissing_creates {directory : LocalDirectoryEntry}
    (hscan : ScannedBelow rootLocalPath directory) :
    Creates env allowed start plan X
      (CreatingWith start plan rootLocalPath X (directory :: queue) depth count)
      (skipMissing runId baseSummary directory.localPath directory.relativePath
        directory.remotePath)
      fun skipped => CreatingWith start plan rootLocalPath X
        (if skipped then queue else directory :: queue) depth count := by
  refine TryTriple.bind (register_creates hx hscan) fun found => ?_
  cases found with
  | none => exact TryTriple.pure fun _ h => h.1
  | some subtree =>
    have hq := (@keptShrinking_creatingWith start plan ρ env allowed rootLocalPath X hx queue depth
      count).quiet runId baseSummary
    refine TryTriple.pre (TryTriple.bind (hq.recordDeletedSubtree runId subtree) fun _ =>
      TryTriple.bind hq.persistRootProgress fun _ => TryTriple.pure fun _ h => h) fun s h => ?_
    exact ⟨h.1.1.drop (h.2 rfl),h.1.2⟩

/-- Ready, each of them. -/
def AllReady (start : SyncMemory) (plan : RootPlan) (batch : List LocalDirectoryEntry)
    (trace : List (Happening SyncMemory)) : Prop :=
  ∀ directory ∈ batch, Ready start plan directory.relativePath trace

omit hx in
theorem AllReady.mono {batch : List LocalDirectoryEntry} {trace trace' : List (Happening SyncMemory)}
    (hpre : trace <+: trace') (h : AllReady start plan batch trace) :
    AllReady start plan batch trace' :=
  fun directory hd => (h directory hd).mono hpre

/-- The next batch leaves the queue to what comes after it, and is ready. -/
theorem nextCreateBatch_creates (slots : Nat) (pending later : List LocalDirectoryEntry)
    (hscan : ∀ directory ∈ pending, ScannedBelow rootLocalPath directory)
    (hpending : ∀ directory ∈ pending, relativeDepth directory.relativePath = depth)
    (hlater : ∀ directory ∈ later, depth ≤ relativeDepth directory.relativePath) :
    Creates env allowed start plan X
      (CreatingWith start plan rootLocalPath X (pending ++ later) depth count)
      (nextCreateBatch runId baseSummary slots pending)
      fun next s => CreatingWith start plan rootLocalPath X (next.1 ++ (next.2 ++ later)) depth
        count s ∧ AllReady start plan next.1 s.trace := by
  induction pending generalizing slots later with
  | nil => cases slots <;> exact TryTriple.pure fun _ h => ⟨h,by simp [AllReady]⟩
  | cons directory pending ih =>
    cases slots with
    | zero => exact TryTriple.pure fun _ h => ⟨h,by simp [AllReady]⟩
    | succ slots =>
      have hrest : ∀ other ∈ pending, ScannedBelow rootLocalPath other :=
        fun other ho => hscan other (List.mem_cons_of_mem _ ho)
      have hlevel : ∀ other ∈ pending, relativeDepth other.relativePath = depth :=
        fun other ho => hpending other (List.mem_cons_of_mem _ ho)
      have hdepth := hpending directory List.mem_cons_self
      unfold nextCreateBatch
      refine TryTriple.bind (keptShrinking_creatingWith hx).livePlan fun found => ?_
      refine iteInduction (motive := fun p => Creates _ _ _ _ _ _ p _) (fun hdeleted => ?_)
        fun hlive => ?_
      · exact (ih (slots+1) later hrest hlevel hlater).pre fun s h =>
          ⟨h.1.1.drop (h.2 ▸ hdeleted),h.1.2⟩
      -- what is above the directory is settled where the plan still has it
      have hqueue : ∀ other ∈ pending ++ later, depth ≤ relativeDepth other.relativePath := by
        intro other ho
        rcases List.mem_append.mp ho with ho | ho
        · exact (hlevel other ho).ge
        · exact hlater other ho
      refine TryTriple.pre (P := fun s => CreatingWith start plan rootLocalPath X
        (directory :: pending ++ later) depth count s ∧
          Ready start plan directory.relativePath s.trace) ?_ fun s h => ⟨h.1,
            h.1.1.ready hdepth hqueue (h.2 ▸ Bool.eq_false_iff.mpr hlive)⟩
      refine TryTriple.bind (frame_trace Ready.mono (skipMissing_creates hx runId baseSummary
        (hscan directory List.mem_cons_self))) fun skipped => ?_
      cases skipped with
      | true => exact (ih (slots+1) later hrest hlevel hlater).pre fun _ h => h.1
      | false =>
        have hnext := ih slots (directory :: later) hrest hlevel fun other ho => by
          rcases List.mem_cons.mp ho with rfl | ho
          · exact hdepth.ge
          · exact hlater other ho
        refine TryTriple.bind (frame_trace Ready.mono (hnext.pre fun s h =>
          h.perm List.perm_middle.symm)) fun result => TryTriple.pure fun s h => ⟨h.1.1.perm ?_,?_⟩
        · rw [← List.append_assoc,List.cons_append,← List.append_assoc]
          exact List.perm_middle
        · exact List.forall_mem_cons.mpr ⟨h.2,h.1.2⟩

omit hx in
/-- A batch takes from the pending entries, and at least one of them. -/
theorem nextCreateBatch_results (slots : Nat) (pending : List LocalDirectoryEntry) :
    TryResults (fun next => (next.1 ++ next.2).Sublist pending ∧
        (0 < slots → pending ≠ [] → next.2.length < pending.length))
      (nextCreateBatch runId baseSummary slots pending) := by
  induction pending generalizing slots with
  | nil => cases slots <;> exact TryResults.pure ⟨List.Sublist.refl _,fun _ h => absurd rfl h⟩
  | cons directory pending ih =>
    cases slots with
    | zero => exact TryResults.pure ⟨List.Sublist.refl _,fun h => absurd h (Nat.lt_irrefl 0)⟩
    | succ slots =>
      unfold nextCreateBatch
      have hover : TryResults (fun next => (next.1 ++ next.2).Sublist (directory :: pending) ∧
          (0 < slots+1 → directory :: pending ≠ [] →
            next.2.length < (directory :: pending).length))
          (nextCreateBatch runId baseSummary (slots+1) pending) := by
        refine (ih (slots+1)).mono fun next hnext => ⟨hnext.1.cons _,fun _ _ => ?_⟩
        have hlength := hnext.1.length_le
        rw [List.length_append] at hlength
        rw [List.length_cons]
        omega
      refine TryResults.bind (tryResults_true _) fun found _ => ?_
      refine iteInduction (motive := fun p => TryResults _ p) (fun _ => hover) fun _ => ?_
      refine TryResults.bind (tryResults_true _) fun skipped _ => ?_
      refine iteInduction (motive := fun p => TryResults _ p) (fun _ => hover) fun _ => ?_
      refine TryResults.bind (ih slots) fun next hnext =>
        TryResults.pure ⟨hnext.1.cons_cons _,fun _ _ => ?_⟩
      have hlength := hnext.1.length_le
      simp only [List.length_append] at hlength
      simp only [List.length_cons]
      omega

/-- The batch is started; no directory above it is in the queue or out. -/
theorem spawnCreates_creates (batch : List LocalDirectoryEntry)
    (hbatch : ∀ directory ∈ batch, relativeDepth directory.relativePath = depth)
    (hqueue : ∀ directory ∈ queue, depth ≤ relativeDepth directory.relativePath) :
    Creates env allowed start plan X
      (fun s => CreatingWith start plan rootLocalPath X (batch ++ queue) depth count s ∧
        AllReady start plan batch s.trace)
      (spawnCreates runId batch) fun _ =>
        CreatingWith start plan rootLocalPath X queue depth (count+batch.length) := by
  induction batch generalizing count with
  | nil => exact TryTriple.pure fun _ h => h.1
  | cons directory batch ih =>
    have hk := @keptShrinking_creatingWith start plan ρ env allowed rootLocalPath X hx
      (directory :: batch ++ queue) depth count
    have hdepth := hbatch directory List.mem_cons_self
    have hrest : ∀ other ∈ batch ++ queue, depth ≤ relativeDepth other.relativePath := by
      intro other ho
      rcases List.mem_append.mp ho with ho | ho
      · exact (hbatch other (List.mem_cons_of_mem _ ho)).ge
      · exact hqueue other ho
    refine TryTriple.bind (frame_trace AllReady.mono (hk.state _)) fun operationId => ?_
    have hready : Stable env.TraceDrift fun s : Traced ρ SyncMemory =>
        AllReady start plan (directory :: batch) s.trace := fun s s' h hdrift =>
      h.mono (env.drifts_trace (.single hdrift))
    have hspawn : Creates env allowed start plan X
        (fun s => CreatingWith start plan rootLocalPath X (directory :: batch ++ queue) depth count
          s ∧ AllReady start plan (directory :: batch) s.trace)
        (perform (.spawn (.createDirectory directory operationId))) fun _ s =>
          CreatingWith start plan rootLocalPath X (batch ++ queue) depth (count+1) s ∧
            AllReady start plan batch s.trace := by
      refine TryTriple.perform (hk.stable.and hready) (fun _ h => h.1.ordered)
        fun s _ s' h hstep => ?_
      obtain ⟨hfirst,hothers⟩ := List.forall_mem_cons.mp h.2
      refine ⟨⟨h.1.1.spawn hdepth hrest hstep,hx.spawn h.1.1 hdepth hrest hfirst h.1.2 hstep⟩,?_⟩
      exact AllReady.mono (by rw [hstep.2.2]; exact List.prefix_append _ _) hothers
    refine TryTriple.bind hspawn fun _ => ?_
    rw [show count+(directory :: batch).length = count+1+batch.length by simp; omega]
    exact ih fun other ho => hbatch other (List.mem_cons_of_mem _ ho)

/-- With a stop the order of the creates stays, else the phase goes on. -/
def Going (start : SyncMemory) (plan : RootPlan) (rootLocalPath : LocalPath)
    (X : Traced ρ SyncMemory → Prop) (queue : List LocalDirectoryEntry) (depth : Nat)
    (stop : Bool) (s : Traced ρ SyncMemory) : Prop :=
  if stop then Ordered start plan X s else CreatingWith start plan rootLocalPath X queue depth 0 s

/-- What is left of a level once a task is collected. -/
def Collected (start : SyncMemory) (plan : RootPlan) (rootLocalPath : LocalPath)
    (X : Traced ρ SyncMemory → Prop) (queue : List LocalDirectoryEntry) (depth fuel : Nat) :
    Option TaskOutcome → Traced ρ SyncMemory → Prop
  | none => CreatingWith start plan rootLocalPath X queue depth 0
  | some (.created ..) => CreatingWith start plan rootLocalPath X queue depth fuel
  | some (.uploaded _) => fun _ => False

/-- All tasks are collected, or dropped at a stop. -/
theorem joinCreates_creates (fuel : Nat) :
    Creates env allowed start plan X
      (CreatingWith start plan rootLocalPath X queue depth fuel)
      (joinCreates root runId baseSummary fuel)
      (Going start plan rootLocalPath X queue depth) := by
  induction fuel with
  | zero => exact TryTriple.pure fun _ h => h
  | succ fuel ih =>
    have hk := @keptShrinking_creatingWith start plan ρ env allowed rootLocalPath X hx queue depth
      fuel
    have hq := hk.quiet runId baseSummary
    refine TryTriple.bind (Q := Collected start plan rootLocalPath X queue depth fuel)
      (TryTriple.perform (keptShrinking_creatingWith hx).stable (fun _ h => h.ordered)
        fun s joined s' h hstep => ?_) fun joined => ?_
    · have hjoin := h.1.join hstep
      have hcompany := hx.join h.2 hstep
      rcases joined with _ | outcome
      · exact ⟨hjoin,hcompany⟩
      · cases outcome with
        | created => exact ⟨hjoin,hcompany⟩
        | uploaded => exact hjoin
    rcases joined with _ | outcome
    · exact TryTriple.pure fun _ h => h
    rcases outcome with ⟨directory,operationId,result⟩ | outcome
    on_goal 2 => exact fun s o s' h _ => h.elim
    cases result with
    | ok _ =>
      have hcreated := recordCreated_of hq (fun record => hk.state _) (fun record => hk.state _)
        directory operationId
      exact TryTriple.bind hcreated fun _ => ih
    | error error =>
      have hfailed := hq.recordClientFailure root operationId "create_directory".toList
        (some (pathToStableString directory.localPath)) directory.remotePath error
      refine TryTriple.bind hfailed fun stop => ?_
      refine iteInduction (motive := fun p => Creates _ _ _ _ _ _ p _) (fun _ => ?_) fun _ => ih
      have hdrop : Creates env allowed start plan X
          (CreatingWith start plan rootLocalPath X queue depth fuel) (perform .dropTasks)
          fun _ => Ordered start plan X := by
        refine TryTriple.perform (keptShrinking_creatingWith hx).stable (fun _ h => h.ordered)
          fun s _ s' h hstep => ?_
        have hordered := h.ordered
        refine ⟨?_,?_,hx.drop h.2 hstep⟩
        · rw [hstep.2.2]
          exact hordered.1.snoc fun _ _ _ he => nomatch he
        · rw [hstep.2.2,List.filterMap_append,List.filterMap_cons_none rfl,List.filterMap_nil,
            List.append_nil]
          exact hordered.2.1
      exact TryTriple.bind hdrop fun _ => TryTriple.pure fun _ h => h

/-- A level is worked off; with no stop none of it is left. -/
theorem createLevel_creates {concurrency : Nat} (hc : 0 < concurrency) (fuel : Nat)
    (pending later : List LocalDirectoryEntry) (hfuel : pending.length ≤ fuel)
    (hscan : ∀ directory ∈ pending, ScannedBelow rootLocalPath directory)
    (hpending : ∀ directory ∈ pending, relativeDepth directory.relativePath = depth)
    (hlater : ∀ directory ∈ later, depth ≤ relativeDepth directory.relativePath) :
    Creates env allowed start plan X
      (CreatingWith start plan rootLocalPath X (pending ++ later) depth 0)
      (createLevel root runId baseSummary concurrency fuel pending)
      (Going start plan rootLocalPath X later depth) := by
  induction fuel generalizing pending with
  | zero =>
    obtain rfl := List.eq_nil_of_length_eq_zero (Nat.le_zero.mp hfuel)
    exact TryTriple.pure fun _ h => h
  | succ fuel ih =>
    unfold createLevel
    refine iteInduction (motive := fun p => Creates _ _ _ _ _ _ p _) (fun hempty => ?_)
      fun hne => ?_
    · rw [List.isEmpty_iff.mp hempty]
      exact TryTriple.pure fun _ h => h
    have hne' : pending ≠ [] := fun h => hne (by simp [h])
    have hq := (@keptShrinking_creatingWith start plan ρ env allowed rootLocalPath X hx
      (pending ++ later) depth 0).quiet runId baseSummary
    refine TryTriple.bind hq.isCancelled fun cancelled => ?_
    refine iteInduction (motive := fun p => Creates _ _ _ _ _ _ p _)
      (fun _ => TryTriple.pure fun _ h => h.ordered) fun _ => ?_
    refine TryTriple.bind ((nextCreateBatch_creates hx runId baseSummary concurrency pending later
      hscan hpending hlater).results (nextCreateBatch_results runId baseSummary concurrency
        pending)) fun next => ?_
    refine TryTriple.of_pure (fun _ h => h.1) fun hnext => TryTriple.pre ?_ fun _ h => h.2
    obtain ⟨hsub,hshorter⟩ := hnext
    have hbatch : ∀ directory ∈ next.1, relativeDepth directory.relativePath = depth :=
      fun directory hd => hpending directory (hsub.subset (List.mem_append_left _ hd))
    have hin : ∀ directory ∈ next.2, directory ∈ pending :=
      fun directory hd => hsub.subset (List.mem_append_right _ hd)
    have hqueue : ∀ directory ∈ next.2 ++ later, depth ≤ relativeDepth directory.relativePath := by
      intro directory hd
      rcases List.mem_append.mp hd with hd | hd
      · exact (hpending directory (hin directory hd)).ge
      · exact hlater directory hd
    have hrest := ih next.2 (by have := hshorter hc hne'; omega)
      (fun directory hd => hscan directory (hin directory hd))
      fun directory hd => hpending directory (hin directory hd)
    refine iteInduction (motive := fun p => Creates _ _ _ _ _ _ p _) (fun hempty => ?_) fun _ => ?_
    · rw [List.isEmpty_iff.mp hempty]
      exact hrest.pre fun _ h => h.1
    refine TryTriple.bind (spawnCreates_creates hx runId next.1 hbatch hqueue) fun _ => ?_
    refine TryTriple.bind ((joinCreates_creates hx root runId baseSummary (next.1.length+1)).pre
      fun s h => ⟨h.1.mono (by omega),h.2⟩) fun stop => ?_
    cases stop with
    | true => exact TryTriple.pure fun _ h => h
    | false => exact hrest

/-- The levels are worked off one below the other. -/
theorem createLevels_creates {concurrency : Nat} (hc : 0 < concurrency)
    (levels : List (List LocalDirectoryEntry))
    (hscan : ∀ directory ∈ levels.flatten, ScannedBelow rootLocalPath directory)
    (hlevels : ∀ level ∈ levels, ∀ a ∈ level, ∀ b ∈ level,
      relativeDepth a.relativePath = relativeDepth b.relativePath)
    (hsorted : levels.flatten.Pairwise fun a b =>
      relativeDepth a.relativePath ≤ relativeDepth b.relativePath) :
    Creates env allowed start plan X
      (CreatingWith start plan rootLocalPath X levels.flatten depth 0)
      (createLevels root runId baseSummary concurrency levels)
      (Going start plan rootLocalPath X [] depth) := by
  induction levels generalizing depth with
  | nil => exact TryTriple.pure fun _ h => h
  | cons level levels ih =>
    rw [List.flatten_cons] at hscan hsorted ⊢
    obtain ⟨depth',hdepth,hlater⟩ : ∃ depth',
        (∀ directory ∈ level, relativeDepth directory.relativePath = depth') ∧
          ∀ directory ∈ levels.flatten, depth' ≤ relativeDepth directory.relativePath := by
      cases level with
      | nil => exact ⟨0,by simp,by simp⟩
      | cons first level =>
        refine ⟨relativeDepth first.relativePath,fun directory hd =>
          hlevels _ List.mem_cons_self _ hd _ List.mem_cons_self,fun directory hd => ?_⟩
        exact (List.pairwise_append.mp hsorted).2.2 first List.mem_cons_self directory hd
    refine TryTriple.bind ((createLevel_creates hx root runId baseSummary hc level.length level
      levels.flatten le_rfl (fun directory hd => hscan directory (List.mem_append_left _ hd)) hdepth
      hlater).pre fun s h => ⟨h.1.descend,h.2⟩) fun stop => ?_
    cases stop with
    | true => exact TryTriple.pure fun _ h => h
    | false =>
      have hrest := @ih depth' (fun directory hd => hscan directory (List.mem_append_right _ hd))
        (fun level hl => hlevels level (List.mem_cons_of_mem _ hl))
        (List.pairwise_append.mp hsorted).2.1
      refine hrest.post fun stop s h => ?_
      cases stop with
      | true => exact h
      | false => exact ⟨h.1.descend,h.2⟩

omit hx in
theorem byDepth_flatten_perm (directories : List LocalDirectoryEntry) :
    (byDepth directories).flatten.Perm directories := by
  unfold byDepth
  rw [List.flatten_splitBy]
  exact sortByKey_perm _ _

omit hx in
theorem byDepth_sorted (directories : List LocalDirectoryEntry) :
    (byDepth directories).flatten.Pairwise fun a b =>
      relativeDepth a.relativePath ≤ relativeDepth b.relativePath := by
  unfold byDepth
  rw [List.flatten_splitBy]
  exact sortByKey_pairwise _ _

omit hx in
theorem byDepth_level {directories level : List LocalDirectoryEntry}
    (h : level ∈ byDepth directories) {a b : LocalDirectoryEntry} (ha : a ∈ level)
    (hb : b ∈ level) : relativeDepth a.relativePath = relativeDepth b.relativePath := by
  have htrans : IsTrans LocalDirectoryEntry fun a b =>
      relativeDepth a.relativePath = relativeDepth b.relativePath :=
    ⟨fun _ _ _ h h' => h.trans h'⟩
  have hpair : level.Pairwise fun a b =>
      relativeDepth a.relativePath = relativeDepth b.relativePath :=
    List.isChain_iff_pairwise.mp
      ((List.isChain_of_mem_splitBy h).imp fun a b hab => beq_iff_eq.mp hab)
  have hflip : level.Pairwise (flip fun a b =>
      relativeDepth a.relativePath = relativeDepth b.relativePath) := hpair.imp fun h => h.symm
  exact List.Pairwise.forall_of_forall_of_flip (R := fun a b =>
    relativeDepth a.relativePath = relativeDepth b.relativePath) (fun _ _ => rfl) hpair hflip ha hb

/-- The phase starts every planned directory at most once, those above it first. -/
theorem applyCreateDirectories_creates (config : AppConfig)
    (hscan : ∀ directory ∈ plan.createDirectories, ScannedBelow rootLocalPath directory) :
    Creates env allowed start plan X
      (CreatingWith start plan rootLocalPath X plan.createDirectories 0 0)
      (applyCreateDirectories config root runId baseSummary plan)
      (Going start plan rootLocalPath X [] 0) := by
  refine TryTriple.bind (keptShrinking_creatingWith hx).livePlan fun found => ?_
  have hperm := byDepth_flatten_perm (plan.createDirectories.filter fun directory =>
    !found.isDeletedRelativePath directory.relativePath)
  have hconcurrency : 0 < max config.sync.createDirectoryConcurrency 1 := by omega
  have hlevels := @createLevels_creates start plan ρ env allowed rootLocalPath X hx 0 root runId
    baseSummary _ hconcurrency (byDepth (plan.createDirectories.filter fun directory =>
      !found.isDeletedRelativePath directory.relativePath))
    (fun directory hd => hscan directory (List.mem_filter.mp (hperm.mem_iff.mp hd)).1)
    (fun level hl a ha b hb => byDepth_level hl ha hb) (byDepth_sorted _)
  refine hlevels.pre fun s h => CreatingWith.perm ⟨h.2 ▸ h.1.1.filter,h.1.2⟩ hperm.symm

end Creates

/-- No company is needed. -/
theorem companion_true {ρ : Type} {env : Environment ρ}
    {allowed : Traced ρ SyncMemory → (e : Effect SyncMemory) → e.Answer → Prop}
    {rootLocalPath : LocalPath} :
    Companion env allowed start plan rootLocalPath fun _ => True where
  stable _ _ _ _ := trivial
  local_step _ _ _ := trivial
  spawn _ _ _ _ _ _ := trivial
  join _ _ := trivial
  drop _ _ := trivial

/-- The entries of a plan made of a scan lie below the root as the scan found them. -/
theorem plannedCreates_scannedBelow {query : MissingQuery} {ext : Externals}
    {root : SyncRootConfig} {canonicalRemotePath : Str} {inventory : Inventory}
    (hroot : pathComponents root.localPath = query.rootPath) :
    ∀ directory ∈
        (buildRootPlan ext root canonicalRemotePath query.plan inventory).createDirectories,
      ScannedBelow query.rootPath directory := by
  intro directory hd
  rw [createDirectories_buildRootPlan] at hd
  rcases List.mem_cons.mp (List.mem_filter.mp hd).1 with rfl | hd
  · exact ⟨[],by rw [List.append_nil]; exact hroot,rfl⟩
  · obtain ⟨names,h⟩ :=
      MissingQuery.scannedAs_directory (LiveScanPlan.mem_ofScanReport_directories hd)
    exact ⟨names,h.localPath_eq,h.relativePath_eq⟩

/-- Before the first step everything is queued. -/
theorem creatingWith_start {ρ : Type} {X : Traced ρ SyncMemory → Prop} {s : Traced ρ SyncMemory}
    (htrace : s.trace = []) (htasks : s.world.tasks = []) (hx : X s) :
    CreatingWith s.world.memory plan s.world.memory.currentPlan.rootLocalPath X
      plan.createDirectories 0 0 s := by
  refine ⟨⟨crew_nil htasks,by rw [htrace]; rfl,rfl,rfl,?_,?_,?_,fun _ hd => Or.inl hd⟩,hx⟩
  · intro past directory operationId answer later heq
    rw [htrace] at heq
    simp at heq
  · rw [htrace]
    exact List.Subperm.refl _
  · intro directory operationId hm
    simp [htasks] at hm

/-- The creates of a plan are made parents first, each at most once. -/
structure CreatesInOrder (start : SyncMemory) (plan : RootPlan)
    (trace : List (Happening SyncMemory)) : Prop where
  parents : ParentsFirst start plan trace
  once : (trace.filterMap Happening.spawnedCreate).Subperm plan.createDirectories

/-- In every run of the phase, finished or cut off, whatever its tasks come to and in whatever
order, a directory is started after those above it, and at most once. -/
theorem applyCreateDirectories_inOrder {ρ : Type} {env : Environment ρ} (config : AppConfig)
    (root : SyncRootConfig) (runId : Int) (baseSummary : SyncRunSummary) (plan : RootPlan)
    {s s' : Traced ρ SyncMemory} {result : Option (Except SyncError Bool)} (htrace : s.trace = [])
    (htasks : s.world.tasks = [])
    (hscan : ∀ directory ∈ plan.createDirectories,
      ScannedBelow s.world.memory.currentPlan.rootLocalPath directory)
    (hrun : Exec (env.TraceStep fun _ _ _ => True) env.TraceDrift
      (applyCreateDirectories config root runId baseSummary plan).run s result s') :
    CreatesInOrder s.world.memory plan s'.trace := by
  have hstart : CreatingWith s.world.memory plan s.world.memory.currentPlan.rootLocalPath
      (fun _ => True) plan.createDirectories 0 0 s := creatingWith_start htrace htasks trivial
  have hnone : Companion env (fun _ _ _ => True) s.world.memory plan
      s.world.memory.currentPlan.rootLocalPath fun _ => True := companion_true
  have hend := applyCreateDirectories_creates hnone root runId baseSummary config hscan s result s'
    hstart hrun
  have hordered : Ordered s.world.memory plan (fun _ => True) s' := by
    match result with
    | none => exact hend
    | some (.error _) => exact hend
    | some (.ok true) => exact hend
    | some (.ok false) => exact CreatingWith.ordered hend
  exact ⟨hordered.1,hordered.2.1⟩

section TwoLevels

/-! A directory below another one, and one beside it. -/

private def levelEntry (names : List Str) : LocalDirectoryEntry :=
  { rootId := "r".toList
    localPath := "r".toList :: names
    relativePath := relativePathOf names
    remotePath := "disk:/r/".toList ++ relativePathOf names
    normalizedRemotePath := "disk:/r/".toList ++ relativePathOf names }

private def levelPlan : RootPlan :=
  ⟨[.createDirectory (levelEntry ["a".toList,"b".toList]),
    .createDirectory (levelEntry ["a".toList]),.createDirectory (levelEntry ["c".toList])]⟩

private def levelStart : Traced RemoteDisk SyncMemory where
  world := {
    disk := {
      items := [
        { components := ["r".toList], fileType := .dir, sizeBytes_lt := emptySize_lt },
        { components := ["r".toList,"a".toList], fileType := .dir, sizeBytes_lt := emptySize_lt },
        { components := ["r".toList,"a".toList,"b".toList], fileType := .dir
          sizeBytes_lt := emptySize_lt },
        { components := ["r".toList,"c".toList], fileType := .dir, sizeBytes_lt := emptySize_lt }]
      names_ne := by decide
      nodup := by decide
      closed := by decide +kernel }
    remote := { resources := Inventory.ofResources [.ofDirectory "disk:/r".toList] }
    repository := {}
    tasks := []
    cancelled := false
    now := 0
    memory := {
      report := { runId := 1 }
      livePlan := some { rootId := "r".toList, rootLocalPath := ["r".toList] } } }

private def levelEnvironment : Environment RemoteDisk :=
  mockEnvironment asciiExternals ⟨none,none⟩ fun _ _ => False

private def levelRoot : SyncRootConfig :=
  { id := "r".toList, name := "r".toList, enabled := true, localPath := "/r".toList }

private def levelRun : Except SyncError Bool × Traced RemoteDisk SyncMemory :=
  levelStart.play { respond := mockResponder ⟨none,none⟩ } asciiExternals
    (applyCreateDirectories defaultConfig levelRoot 1 {} levelPlan).run

theorem levels_inOrder : levelRun.2.trace.filterMap Happening.spawnedCreate =
      [levelEntry ["a".toList],levelEntry ["c".toList],levelEntry ["a".toList,"b".toList]] ∧
    CreatesInOrder levelStart.world.memory levelPlan levelRun.2.trace := by
  have hallowed : Scenario.Allowed (μ := SyncMemory) { respond := mockResponder ⟨none,none⟩ }
      levelEnvironment := {
    admits := mockEnvironment_admits asciiExternals ⟨none,none⟩ fun _ _ => False
    cancels := fun _ _ hc => by simp at hc }
  have hexec : Exec (levelEnvironment.TraceStep fun _ _ _ => True) levelEnvironment.TraceDrift _
      levelStart (some levelRun.1) levelRun.2 :=
    Scenario.exec_play hallowed (J := fun _ => True) (fun _ _ _ => trivial)
      (fun _ _ _ => trivial) _ trivial
  refine ⟨by decide +kernel,applyCreateDirectories_inOrder _ _ _ _ levelPlan rfl rfl ?_ hexec⟩
  intro directory hd
  have hall : ∀ directory ∈ levelPlan.createDirectories,
      directory = levelEntry ["a".toList,"b".toList] ∨ directory = levelEntry ["a".toList] ∨
        directory = levelEntry ["c".toList] := by decide
  rcases hall directory hd with rfl | rfl | rfl
  · exact ⟨["a".toList,"b".toList],rfl,rfl⟩
  · exact ⟨["a".toList],rfl,rfl⟩
  · exact ⟨["c".toList],rfl,rfl⟩

end TwoLevels

end SyncEngine

end YaDiskSync

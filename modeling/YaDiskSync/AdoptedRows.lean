import YaDiskSync.MigrationWork
import YaDiskSync.Trace

/-! The rows of the files a migration takes over as they are. They are buffered, so what matters is
that the buffer is empty wherever the phase may end. -/
namespace YaDiskSync

open Prog

namespace AdoptionBatch

/-- The rows of one batch are among those of another. -/
structure Within (one batch : AdoptionBatch) : Prop where
  operations : one.operations ⊆ batch.operations
  fileStates : one.fileStates ⊆ batch.fileStates
  remoteResources : one.remoteResources ⊆ batch.remoteResources
  migrationMaps : one.migrationMaps ⊆ batch.migrationMaps

/-- The writes of a batch. -/
def writes (batch : AdoptionBatch) : List (Happening MigrationMemory) :=
  [.step (.state (.upsertFileStates batch.fileStates)) (.ok ()),
    .step (.state (.upsertRemoteResources batch.remoteResources)) (.ok ()),
    .step (.state (.upsertMigrationMaps batch.migrationMaps)) (.ok ()),
    .step (.state (.appendOperationsSucceeded batch.operations)) (.ok ())]

/-- One more row of each kind. -/
def push (batch one : AdoptionBatch) : AdoptionBatch where
  operations := batch.operations ++ one.operations
  fileStates := batch.fileStates ++ one.fileStates
  remoteResources := batch.remoteResources ++ one.remoteResources
  migrationMaps := batch.migrationMaps ++ one.migrationMaps

theorem Within.push {one batch : AdoptionBatch} (h : one.Within batch) (other : AdoptionBatch) :
    one.Within (batch.push other) :=
  ⟨fun _ hr => List.mem_append_left _ (h.operations hr),
    fun _ hr => List.mem_append_left _ (h.fileStates hr),
    fun _ hr => List.mem_append_left _ (h.remoteResources hr),
    fun _ hr => List.mem_append_left _ (h.migrationMaps hr)⟩

theorem within_push (batch one : AdoptionBatch) : one.Within (batch.push one) :=
  ⟨List.subset_append_right _ _,List.subset_append_right _ _,List.subset_append_right _ _,
    List.subset_append_right _ _⟩

end AdoptionBatch

namespace MigrationEngine

/-- The rows that take a file over as it is. -/
def adoption (root : SyncRootConfig) (runId : Int) (file : LocalFileEntry)
    (remote : ResourceMetadata) : AdoptionBatch where
  operations := [{
    runId, operation := "migration_adopt_remote_file".toList
    localPath := some (pathToStableString file.localPath), remotePath := some file.remotePath }]
  fileStates := [migrationFileStateRecord file runId .synced none remote.md5]
  remoteResources := [remoteResourceRecord root.id remote]
  migrationMaps := [{
    rootId := root.id, legacyRemotePath := file.remotePath
    canonicalRemotePath := file.remotePath, status := .adopted, lastError := none }]

/-- A file and what was found at its place. -/
structure Compared (files : List LocalFileEntry) (trace : List (Happening MigrationMemory))
    (relativePath remotePath : Str) (file : LocalFileEntry) (remote : ResourceMetadata) : Prop where
  file_mem : file ∈ files
  relativePath : file.relativePath = relativePath
  remotePath : file.remotePath = remotePath
  found : ∃ memory : MigrationMemory, .step .readMemory memory ∈ trace ∧
    memory.remoteSets.canonical[file.remotePath]? = some remote

/-- All rows of an adoption are written. -/
def AdoptionStored (root : SyncRootConfig) (runId : Int) (files : List LocalFileEntry)
    (trace : List (Happening MigrationMemory)) (relativePath remotePath : Str) : Prop :=
  ∃ file remote batch, Compared files trace relativePath remotePath file remote ∧
    (adoption root runId file remote).Within batch ∧ batch.writes ⊆ trace

/-- All rows of an adoption wait in the batch. -/
def AdoptionBuffered (root : SyncRootConfig) (runId : Int) (files : List LocalFileEntry)
    (trace : List (Happening MigrationMemory)) (batch : AdoptionBatch)
    (relativePath remotePath : Str) : Prop :=
  ∃ file remote, Compared files trace relativePath remotePath file remote ∧
    (adoption root runId file remote).Within batch

/-- What has happened since the start. -/
def since {ρ : Type} (start s : Traced ρ MigrationMemory) : List (Happening MigrationMemory) :=
  s.trace.drop start.trace.length

/-- Every adoption planned since the start meets a condition. -/
def PlannedSince {ρ : Type} (start s : Traced ρ MigrationMemory) (φ : Str → Str → Prop) : Prop :=
  ∃ added, s.world.memory.report.plan = start.world.memory.report.plan ++ added ∧
    ∀ relativePath remotePath method,
      .adoptRemoteFile relativePath remotePath method ∈ added → φ relativePath remotePath

/-- The files of a migration's plan. -/
def plannedFiles (memory : MigrationMemory) : List LocalFileEntry :=
  (memory.livePlan.getD { rootId := [], rootLocalPath := [] }).files

/-- Every adoption planned since the start is written. -/
def AdoptionsStored {ρ : Type} (root : SyncRootConfig) (runId : Int)
    (start s : Traced ρ MigrationMemory) : Prop :=
  PlannedSince start s
    (AdoptionStored root runId (plannedFiles start.world.memory) (since start s))

/-- The writes to the database succeed. -/
def writesSucceed : (e : Effect MigrationMemory) → e.Answer → Prop
  | .state (.listFileStatesForRoot _), _ => True
  | .state _, .error _ => False
  | _, _ => True

/-- No comparison ends the run while adoptions are buffered. -/
def comparesSettled {ρ : Type} (s : Traced ρ MigrationMemory) :
    (e : Effect MigrationMemory) → e.Answer → Prop
  | .client (.download _), .error error =>
    isStopError error.kind = true → s.world.memory.adoptionBatch.fileStates = []
  | _, _ => True

section Accounts

variable {ρ : Type} {env : Environment ρ} {root : SyncRootConfig} {runId : Int}
  {files : List LocalFileEntry} {start s s' : Traced ρ MigrationMemory}

theorem Compared.mono {trace trace' : List (Happening MigrationMemory)} {relativePath remotePath : Str}
    {file : LocalFileEntry} {remote : ResourceMetadata} (hsub : trace ⊆ trace')
    (h : Compared files trace relativePath remotePath file remote) :
    Compared files trace' relativePath remotePath file remote :=
  ⟨h.file_mem,h.relativePath,h.remotePath,h.found.imp fun _ hm => ⟨hsub hm.1,hm.2⟩⟩

theorem AdoptionStored.mono {trace trace' : List (Happening MigrationMemory)}
    {relativePath remotePath : Str} (hsub : trace ⊆ trace')
    (h : AdoptionStored root runId files trace relativePath remotePath) :
    AdoptionStored root runId files trace' relativePath remotePath := by
  obtain ⟨file,remote,batch,hcompared,hwithin,hwrites⟩ := h
  exact ⟨file,remote,batch,hcompared.mono hsub,hwithin,fun _ hw => hsub (hwrites hw)⟩

/-- Every adoption planned since the start is written, or waits to be. -/
structure Accounted (root : SyncRootConfig) (runId : Int) (files : List LocalFileEntry)
    (start s : Traced ρ MigrationMemory) : Prop where
  grown : start.trace <+: s.trace
  planned : PlannedSince start s fun relativePath remotePath =>
    AdoptionStored root runId files (since start s) relativePath remotePath ∨
      AdoptionBuffered root runId files (since start s) s.world.memory.adoptionBatch relativePath
        remotePath

/-- And none waits. -/
structure Flushed (root : SyncRootConfig) (runId : Int) (files : List LocalFileEntry)
    (start s : Traced ρ MigrationMemory) : Prop extends Accounted root runId files start s where
  empty : s.world.memory.adoptionBatch.fileStates = []

theorem Flushed.stored (h : Flushed root runId files start s) :
    PlannedSince start s (AdoptionStored root runId files (since start s)) := by
  obtain ⟨added,hplan,hadded⟩ := h.planned
  refine ⟨added,hplan,fun relativePath remotePath method hmem => ?_⟩
  rcases hadded relativePath remotePath method hmem with hstored | ⟨file,remote,_,hwithin⟩
  · exact hstored
  · have hrow := hwithin.fileStates List.mem_cons_self
    rw [h.empty] at hrow
    cases hrow

theorem since_subset (hgrown : s.trace <+: s'.trace) : since start s ⊆ since start s' := by
  obtain ⟨last,hlast⟩ := hgrown
  intro happening hmem
  rw [since,← hlast,List.drop_append]
  exact List.mem_append_left _ hmem

theorem mem_since {happening : Happening MigrationMemory} (hgrown : start.trace <+: s.trace)
    (htrace : s'.trace = s.trace ++ [happening]) : happening ∈ since start s' := by
  rw [since,htrace,List.drop_append_of_le_length hgrown.length_le]
  exact List.mem_append_right _ List.mem_cons_self

/-- More history takes nothing back, and neither do changes that plan no adoption. -/
theorem Accounted.of_memory (h : Accounted root runId files start s)
    (hgrown : s.trace <+: s'.trace)
    (hbatch : s'.world.memory.adoptionBatch = s.world.memory.adoptionBatch)
    (hplan : ∃ operations, s'.world.memory.report.plan = s.world.memory.report.plan ++ operations ∧
      ∀ relativePath remotePath method,
        .adoptRemoteFile relativePath remotePath method ∉ operations) :
    Accounted root runId files start s' := by
  obtain ⟨added,hadded,hall⟩ := h.planned
  obtain ⟨operations,hoperations,hno⟩ := hplan
  refine ⟨h.grown.trans hgrown,added ++ operations,by rw [hoperations,hadded,List.append_assoc],
    fun relativePath remotePath method hmem => ?_⟩
  rcases List.mem_append.mp hmem with hmem | hmem
  · have hsub : since start s ⊆ since start s' := since_subset hgrown
    rcases hall relativePath remotePath method hmem with hstored | ⟨file,remote,hcompared,hwithin⟩
    · exact Or.inl (hstored.mono hsub)
    · exact Or.inr ⟨file,remote,hcompared.mono hsub,by rwa [hbatch]⟩
  · exact absurd hmem (hno relativePath remotePath method)

theorem Accounted.same (h : Accounted root runId files start s) (hgrown : s.trace <+: s'.trace)
    (hmemory : s'.world.memory = s.world.memory) : Accounted root runId files start s' :=
  h.of_memory hgrown (by rw [hmemory]) ⟨[],by rw [hmemory,List.append_nil],fun _ _ _ => by simp⟩

theorem Flushed.of_memory (h : Flushed root runId files start s) (hgrown : s.trace <+: s'.trace)
    (hbatch : s'.world.memory.adoptionBatch = s.world.memory.adoptionBatch)
    (hplan : ∃ operations, s'.world.memory.report.plan = s.world.memory.report.plan ++ operations ∧
      ∀ relativePath remotePath method,
        .adoptRemoteFile relativePath remotePath method ∉ operations) :
    Flushed root runId files start s' :=
  ⟨h.toAccounted.of_memory hgrown hbatch hplan,by rw [hbatch,h.empty]⟩

theorem Flushed.same (h : Flushed root runId files start s) (hgrown : s.trace <+: s'.trace)
    (hmemory : s'.world.memory = s.world.memory) : Flushed root runId files start s' :=
  ⟨h.toAccounted.same hgrown hmemory,by rw [hmemory,h.empty]⟩

theorem drift_grown (h : env.TraceDrift s s') : s.trace <+: s'.trace :=
  Environment.drifts_trace (.single h)

theorem stable_accounted : Stable env.TraceDrift (Accounted root runId files start) :=
  fun _ _ h hdrift => h.same (drift_grown hdrift) hdrift.memory_eq

theorem stable_flushed : Stable env.TraceDrift (Flushed root runId files start) :=
  fun _ _ h hdrift => h.same (drift_grown hdrift) hdrift.memory_eq

end Accounts

section Phase

variable {ρ : Type} {env : Environment ρ} {root : SyncRootConfig} {runId : Int}
  {files : List LocalFileEntry} {start : Traced ρ MigrationMemory}

/-- The steps of a phase whose writes succeed and whose comparisons end no run that buffers
adoptions. -/
abbrev FlushingStep (env : Environment ρ) :=
  env.TraceStep (μ := MigrationMemory) fun s e answer =>
    writesSucceed e answer ∧ comparesSettled s e answer

/-- Nothing is buffered, before and after. -/
abbrev StaysFlushed (env : Environment ρ) (root : SyncRootConfig) (runId : Int)
    (files : List LocalFileEntry) (start : Traced ρ MigrationMemory) ⦃α : Type⦄ (p : Migrator α) :
    Prop :=
  Upholds (FlushingStep env) env.TraceDrift (Flushed root runId files start)
    (Flushed root runId files start) p

/-- From `P` to `Q`; at an error nothing is buffered. -/
abbrev Buffers (env : Environment ρ) (root : SyncRootConfig) (runId : Int)
    (files : List LocalFileEntry) (start : Traced ρ MigrationMemory)
    (P : Traced ρ MigrationMemory → Prop) {α : Type} (p : Migrator α)
    (Q : α → Traced ρ MigrationMemory → Prop) : Prop :=
  Leads (FlushingStep env) env.TraceDrift (Flushed root runId files start) P p Q

theorem step_grown {s s' : Traced ρ MigrationMemory} {e : Effect MigrationMemory} {answer : e.Answer}
    (hstep : FlushingStep env s e answer s') : s.trace <+: s'.trace := by
  rw [hstep.2.2]
  exact List.prefix_append _ _

/-- Changes of the variables that leave the adoptions alone and plan none. -/
def PlansNoAdoption (f : MigrationMemory → MigrationMemory) : Prop :=
  ∀ memory, (f memory).adoptionBatch = memory.adoptionBatch ∧
    ∃ operations, (f memory).report.plan = memory.report.plan ++ operations ∧
      ∀ relativePath remotePath method, .adoptRemoteFile relativePath remotePath method ∉ operations

theorem Accounted.assign {s s' : Traced ρ MigrationMemory} {f : MigrationMemory → MigrationMemory}
    {answer : Unit} (hf : PlansNoAdoption f) (h : Accounted root runId files start s)
    (hstep : FlushingStep env s (.updateMemory f) answer s') : Accounted root runId files start s' := by
  have hworld : s'.world = { s.world with memory := f s.world.memory } := hstep.2.1
  exact h.of_memory (step_grown hstep) (by rw [hworld]; exact (hf _).1)
    (by rw [hworld]; exact (hf _).2)

theorem Flushed.assign {s s' : Traced ρ MigrationMemory} {f : MigrationMemory → MigrationMemory}
    {answer : Unit} (hf : PlansNoAdoption f) (h : Flushed root runId files start s)
    (hstep : FlushingStep env s (.updateMemory f) answer s') : Flushed root runId files start s' := by
  have hworld : s'.world = { s.world with memory := f s.world.memory } := hstep.2.1
  exact ⟨h.toAccounted.assign hf hstep,by
    rw [hworld]
    exact (congrArg AdoptionBatch.fileStates (hf _).1).trans h.empty⟩

theorem plansNoAdoption_of_same {f : MigrationMemory → MigrationMemory}
    (hf : ∀ memory, (f memory).adoptionBatch = memory.adoptionBatch ∧
      (f memory).report = memory.report) : PlansNoAdoption f :=
  fun memory => ⟨(hf memory).1,[],by rw [(hf memory).2,List.append_nil],fun _ _ _ => by simp⟩

theorem flushed_ask (e : Effect MigrationMemory) (he : ∀ f, e ≠ .updateMemory f) :
    StaysFlushed env root runId files start (perform e) :=
  Upholds.perform stable_flushed fun _ _ _ h hstep =>
    h.same (step_grown hstep) (hstep.2.1.memory_eq he)

theorem flushed_state (call : StateCall) :
    StaysFlushed env root runId files start (state call) :=
  state_leads stable_flushed
    (fun _ _ _ h hstep => h.same (step_grown hstep) (hstep.2.1.memory_eq (by simp)))
    fun _ _ _ h hstep => h.same (step_grown hstep) (hstep.2.1.memory_eq (by simp))

theorem flushed_assign {f : MigrationMemory → MigrationMemory} (hf : PlansNoAdoption f) :
    StaysFlushed env root runId files start (perform (.updateMemory f)) :=
  Upholds.perform stable_flushed fun _ _ _ h hstep => h.assign hf hstep

theorem ne_updateMemory {e : Effect MigrationMemory} (he : isReading e = true) :
    ∀ f, e ≠ .updateMemory f := by
  rintro f rfl
  cases he

/-- The work on a single file leaves the batch alone. -/
theorem handling_flushed : Handling (StaysFlushed env root runId files start) where
  toSequential := sequential_upholds fun _ h => h
  reading h := TryTriple.lift (h.triple stable_flushed (fun _ _ => trivial)
    fun e he s answer s' hs hstep => hs.same (step_grown hstep)
      (hstep.2.1.memory_eq (ne_updateMemory he)))
  modifySummary f := flushed_assign (plansNoAdoption_of_same fun _ => ⟨rfl,rfl⟩)
  modifySets f := flushed_assign (plansNoAdoption_of_same fun _ => ⟨rfl,rfl⟩)
  register := by
    have hreporting : Reporting (StaysFlushed env root runId files start) := {
      toComposable := (sequential_upholds fun _ h => h).toComposable
      report := fun _ => flushed_state _
      readMemory := flushed_ask _ (by simp)
      modifySummary := fun f _ _ => flushed_assign (plansNoAdoption_of_same fun _ => ⟨rfl,rfl⟩)
      isCancelled := flushed_ask _ (by simp) }
    exact hreporting.register_of (fun path => flushed_ask _ (by simp))
      (fun path => flushed_ask _ (by simp))
      fun plan => flushed_assign (plansNoAdoption_of_same fun _ => ⟨rfl,rfl⟩)
  attempt h := (h.catch fun _ h => h).post fun _ _ h => h

/-- And so do whole upload batches. -/
theorem applyMigrationUploadBatch_flushed (config : AppConfig) (baseSummary : SyncRunSummary) :
    StaysFlushed env root runId files start
      (applyMigrationUploadBatch config root runId baseSummary) := by
  have hk : Handling (StaysFlushed env root runId files start) := handling_flushed
  refine hk.applyMigrationUploadBatch config root runId baseSummary
    (fun batch => flushed_assign (plansNoAdoption_of_same fun _ => ⟨rfl,rfl⟩))
    (fun _ _ _ => flushed_ask _ (by simp)) (flushed_ask _ (by simp)) fun operationId file isUpdate => ?_
  have hstatus : StaysFlushed env root runId files start (fileStatusAfterUpload file) := by
    refine hk.bind (flushed_ask _ (by simp)) fun found => ?_
    cases found with
    | none => exact hk.pure _
    | some found =>
      exact iteInduction (motive := fun p => StaysFlushed env root runId files start p)
        (fun _ => hk.pure _) fun _ => hk.pure _
  exact hk.bind (flushed_state _) fun _ => hk.bind hstatus fun _ =>
    hk.bind (flushed_state _) fun _ => hk.bind (hk.modifySets _) fun _ =>
    hk.bind (flushed_state _) fun _ => hk.bind (flushed_state _) fun _ =>
    hk.bind (hk.modifySummary _) fun _ => hk.persistRootProgress runId baseSummary

section Flush

/-- Part of the writes of a flush are done. -/
def Flushing (root : SyncRootConfig) (runId : Int) (files : List LocalFileEntry)
    (start : Traced ρ MigrationMemory) (memory : MigrationMemory)
    (done : List (Happening MigrationMemory)) (s : Traced ρ MigrationMemory) : Prop :=
  Accounted root runId files start s ∧ s.world.memory = memory ∧ done ⊆ since start s

theorem Flushing.same {memory : MigrationMemory} {done : List (Happening MigrationMemory)}
    {s s' : Traced ρ MigrationMemory} (h : Flushing root runId files start memory done s)
    (hgrown : s.trace <+: s'.trace) (hmemory : s'.world.memory = s.world.memory) :
    Flushing root runId files start memory done s' :=
  ⟨h.1.same hgrown hmemory,hmemory.trans h.2.1,List.Subset.trans h.2.2 (since_subset hgrown)⟩

theorem write_buffers {memory : MigrationMemory} {done : List (Happening MigrationMemory)}
    {call : StateCall} (hcall : ∀ rootId, call ≠ .listFileStatesForRoot rootId) :
    Buffers env root runId files start (Flushing root runId files start memory done) (state call)
      fun result => Flushing root runId files start memory
        (done ++ [.step (.state call) (.ok result)]) := by
  refine state_leads
    (fun _ _ h hdrift => h.same (drift_grown hdrift) hdrift.memory_eq)
    (fun s result s' h hstep => ?_) fun s error s' h hstep => ?_
  · have hnext := h.same (step_grown hstep) (hstep.2.1.memory_eq (by simp))
    exact ⟨hnext.1,hnext.2.1,List.append_subset.mpr ⟨hnext.2.2,
      List.cons_subset.mpr ⟨mem_since h.1.grown hstep.2.2,List.nil_subset _⟩⟩⟩
  · exfalso
    cases call with
    | listFileStatesForRoot rootId => exact hcall rootId rfl
    | _ => exact hstep.1.1

theorem memory_buffers : Buffers env root runId files start (Accounted root runId files start) memory
    fun memory => Flushing root runId files start memory [.step .readMemory memory] :=
  TryTriple.perform stable_accounted (fun _ _ => trivial) fun s answer s' h hstep => by
    refine ⟨h.same (step_grown hstep) (hstep.2.1.memory_eq (by simp)),?_,?_⟩
    · obtain ⟨rfl,hw⟩ := hstep.2.1
      rw [hw]
    · exact List.cons_subset.mpr ⟨mem_since h.grown hstep.2.2,List.nil_subset _⟩

/-- The rows of everything that waits are written, whatever it is. -/
theorem flushAdoptions_buffers : Buffers env root runId files start
    (Accounted root runId files start) flushAdoptions fun _ => Flushed root runId files start := by
  refine TryTriple.bind memory_buffers fun memory => ?_
  refine iteInduction (motive := fun p => Buffers env root runId files start _ p _)
    (fun hempty => ?_) fun _ => ?_
  · refine TryTriple.pure fun s h => ⟨h.1,?_⟩
    rw [h.2.1]
    exact List.isEmpty_iff.mp hempty
  refine TryTriple.bind (write_buffers (by simp)) fun _ =>
    TryTriple.bind (write_buffers (by simp)) fun _ =>
    TryTriple.bind (write_buffers (by simp)) fun _ =>
    TryTriple.bind (write_buffers (by simp)) fun _ => ?_
  refine TryTriple.perform (fun _ _ h hdrift => h.same (drift_grown hdrift) hdrift.memory_eq)
    (fun _ _ => trivial) fun s answer s' h hstep => ?_
  obtain ⟨haccounted,rfl,hdone⟩ := h
  have hworld : s'.world =
    { s.world with memory := { s.world.memory with adoptionBatch := {} } } := hstep.2.1
  have hwrites : s.world.memory.adoptionBatch.writes ⊆ since start s' :=
    List.Subset.trans (List.Subset.trans (List.subset_append_right [_] _) hdone)
      (since_subset (step_grown hstep))
  obtain ⟨added,hplan,hadded⟩ := haccounted.planned
  refine ⟨⟨haccounted.grown.trans (step_grown hstep),added,by rw [hworld]; exact hplan,
    fun relativePath remotePath method hmem => Or.inl ?_⟩,by rw [hworld]⟩
  have hsub : since start s ⊆ since start s' := since_subset (step_grown hstep)
  rcases hadded relativePath remotePath method hmem with hstored | ⟨file,remote,hcompared,hwithin⟩
  · exact hstored.mono hsub
  · exact ⟨file,remote,_,hcompared.mono hsub,hwithin,hwrites⟩

end Flush

section Files

variable (config : AppConfig) (baseSummary : SyncRunSummary)

theorem accounted_ask {e : Effect MigrationMemory} (he : ∀ f, e ≠ .updateMemory f) :
    Buffers env root runId files start (Accounted root runId files start) (perform e)
      fun _ => Accounted root runId files start :=
  TryTriple.perform stable_accounted (fun _ _ => trivial) fun _ _ _ h hstep =>
    h.same (step_grown hstep) (hstep.2.1.memory_eq he)

theorem accounted_assign {f : MigrationMemory → MigrationMemory} (hf : PlansNoAdoption f) :
    Buffers env root runId files start (Accounted root runId files start)
      (perform (.updateMemory f)) fun _ => Accounted root runId files start :=
  TryTriple.perform stable_accounted (fun _ _ => trivial) fun _ _ _ h hstep => h.assign hf hstep

theorem accounted_state {call : StateCall} (hcall : ∀ rootId, call ≠ .listFileStatesForRoot rootId) :
    Buffers env root runId files start (Accounted root runId files start) (state call)
      fun _ => Accounted root runId files start := by
  have hwrite : ∀ memory, Buffers env root runId files start
      (Flushing root runId files start memory []) (state call)
      fun _ => Accounted root runId files start :=
    fun memory => (write_buffers hcall).weaken (fun _ h => h) (fun _ _ h => h.1) (fun _ h => h)
      fun _ h => h
  exact (TryTriple.exists_pre hwrite).pre fun s h => ⟨s.world.memory,h,rfl,List.nil_subset _⟩

theorem accounted_reporting : Reporting fun ⦃α⦄ (p : Migrator α) =>
    Buffers env root runId files start (Accounted root runId files start) p
      fun _ => Accounted root runId files start where
  pure _ := TryTriple.pure fun _ h => h
  bind hp hf := TryTriple.bind hp hf
  report {call} h := accounted_state (by rintro rootId rfl; cases h)
  readMemory := accounted_ask (by simp)
  modifySummary f _ _ := accounted_assign (plansNoAdoption_of_same fun _ => ⟨rfl,rfl⟩)
  isCancelled := accounted_ask (by simp)

theorem persistRootProgress_buffers : Buffers env root runId files start
    (Accounted root runId files start) (persistRootProgress runId baseSummary)
    fun _ => Accounted root runId files start :=
  TryTriple.bind (accounted_ask (by simp)) fun _ => accounted_state (by simp)

/-- A file is compared with what was found at its place. -/
def Comparing (root : SyncRootConfig) (runId : Int) (files : List LocalFileEntry)
    (start : Traced ρ MigrationMemory) (file : LocalFileEntry) (remote : ResourceMetadata)
    (s : Traced ρ MigrationMemory) : Prop :=
  Accounted root runId files start s ∧
    Compared files (since start s) file.relativePath file.remotePath file remote

theorem Comparing.same {file : LocalFileEntry} {remote : ResourceMetadata}
    {s s' : Traced ρ MigrationMemory} (h : Comparing root runId files start file remote s)
    (hgrown : s.trace <+: s'.trace) (hmemory : s'.world.memory = s.world.memory) :
    Comparing root runId files start file remote s' :=
  ⟨h.1.same hgrown hmemory,h.2.mono (since_subset hgrown)⟩

theorem stable_comparing {file : LocalFileEntry} {remote : ResourceMetadata} :
    Stable env.TraceDrift (Comparing root runId files start file remote) :=
  fun _ _ h hdrift => h.same (drift_grown hdrift) hdrift.memory_eq

/-- Only an error that ends the run needs the batch to be empty. -/
theorem remoteMatchesLocal_buffers (file : LocalFileEntry) (remote : ResourceMetadata) :
    Triple (FlushingStep env) env.TraceDrift (Comparing root runId files start file remote)
      (remoteMatchesLocal config file remote).run
      (fun result s => Comparing root runId files start file remote s ∧
        ∀ error, result = .error error → perFileProcessingError error = none →
          s.world.memory.adoptionBatch.fileStates = []) fun _ => True := by
  have hpure : ∀ decision, Triple (FlushingStep env) env.TraceDrift
      (Comparing root runId files start file remote) (pure decision : Migrator AdoptionDecision).run
      (fun result s => Comparing root runId files start file remote s ∧
        ∀ error, result = .error error → perFileProcessingError error = none →
          s.world.memory.adoptionBatch.fileStates = []) fun _ => True :=
    fun decision => Triple.ret fun s h => ⟨h,fun error he => by cases he⟩
  unfold remoteMatchesLocal
  split
  · exact hpure _
  split
  case isFalse => exact hpure _
  cases remote.md5 with
  | some remoteMd5 => exact hpure _
  | none =>
    refine TryTriple.bind_run (Q := fun _ => Comparing root runId files start file remote)
      (TryTriple.perform stable_comparing (fun _ _ => trivial) fun _ _ _ h hstep =>
        h.same (step_grown hstep) (hstep.2.1.memory_eq (by simp))) fun content => ?_
    cases content with
    | error error =>
      refine Triple.ret fun s h => ⟨h,fun failure he hfatal => ?_⟩
      cases he
      cases hfatal
    | ok localContent =>
      refine TryTriple.bind_run (Q := fun answer s => Comparing root runId files start file remote s ∧
          ∀ error, answer = .error error → isStopError error.kind = true →
            s.world.memory.adoptionBatch.fileStates = [])
        (TryTriple.perform stable_comparing (fun _ _ => trivial) fun s answer s' h hstep =>
          ⟨h.same (step_grown hstep) (hstep.2.1.memory_eq (by simp)),fun error he hstop => ?_⟩)
        fun answer => ?_
      · subst he
        rw [hstep.2.1.memory_eq (by simp)]
        exact hstep.1.2 hstop
      · cases answer with
        | error error =>
          refine Triple.ret fun s h => ⟨h.1,fun failure he hfatal => h.2 error rfl ?_⟩
          cases he
          simpa [perFileProcessingError] using hfatal
        | ok remoteContent => exact Triple.ret fun s h => ⟨h.1,fun error he => by cases he⟩

/-- The rows of a file wait in the batch. -/
def Waiting (root : SyncRootConfig) (runId : Int) (files : List LocalFileEntry)
    (start : Traced ρ MigrationMemory) (file : LocalFileEntry) (s : Traced ρ MigrationMemory) :
    Prop :=
  Accounted root runId files start s ∧ AdoptionBuffered root runId files (since start s)
    s.world.memory.adoptionBatch file.relativePath file.remotePath

theorem push_buffers (file : LocalFileEntry) (remote : ResourceMetadata) :
    Buffers env root runId files start (Comparing root runId files start file remote)
      (perform (.updateMemory fun memory => { memory with
        adoptionBatch := memory.adoptionBatch.push (adoption root runId file remote) }))
      fun _ => Waiting root runId files start file := by
  refine TryTriple.perform stable_comparing (fun _ _ => trivial) fun s answer s' h hstep => ?_
  have hworld : s'.world = { s.world with memory := { s.world.memory with
      adoptionBatch := s.world.memory.adoptionBatch.push (adoption root runId file remote) } } :=
    hstep.2.1
  have hsub : since start s ⊆ since start s' := since_subset (step_grown hstep)
  obtain ⟨added,hplan,hadded⟩ := h.1.planned
  refine ⟨⟨h.1.grown.trans (step_grown hstep),added,by rw [hworld]; exact hplan,
    fun relativePath remotePath method hmem => ?_⟩,file,remote,h.2.mono hsub,?_⟩
  · rcases hadded relativePath remotePath method hmem with
      hstored | ⟨other,found,hcompared,hwithin⟩
    · exact Or.inl (hstored.mono hsub)
    · refine Or.inr ⟨other,found,hcompared.mono hsub,?_⟩
      rw [hworld]
      exact hwithin.push _
  · rw [hworld]
    exact AdoptionBatch.within_push _ _

theorem planned_buffers (file : LocalFileEntry) (method : Str) :
    Buffers env root runId files start (Waiting root runId files start file)
      (planned (.adoptRemoteFile file.relativePath file.remotePath method))
      fun _ => Accounted root runId files start := by
  refine TryTriple.perform (fun s s' h hdrift => ?_) (fun _ _ => trivial)
    fun s answer s' h hstep => ?_
  · obtain ⟨haccounted,other,found,hcompared,hwithin⟩ := h
    refine ⟨stable_accounted s s' haccounted hdrift,other,found,
      hcompared.mono (since_subset (drift_grown hdrift)),?_⟩
    rwa [hdrift.memory_eq]
  · obtain ⟨haccounted,other,found,hcompared,hwithin⟩ := h
    have hworld : s'.world = { s.world with memory := { s.world.memory with
        report := { s.world.memory.report with
          plan := s.world.memory.report.plan ++
            [.adoptRemoteFile file.relativePath file.remotePath method] } } } := hstep.2.1
    have hsub : since start s ⊆ since start s' := since_subset (step_grown hstep)
    obtain ⟨added,hplan,hadded⟩ := haccounted.planned
    refine ⟨haccounted.grown.trans (step_grown hstep),
      added ++ [.adoptRemoteFile file.relativePath file.remotePath method],?_,
      fun relativePath remotePath method' hmem => ?_⟩
    · rw [hworld,← List.append_assoc,← hplan]
    rcases List.mem_append.mp hmem with hmem | hmem
    · rcases hadded relativePath remotePath method' hmem with
        hstored | ⟨other,found,hcompared,hwithin⟩
      · exact Or.inl (hstored.mono hsub)
      · exact Or.inr ⟨other,found,hcompared.mono hsub,by rwa [hworld]⟩
    · cases List.mem_singleton.mp hmem
      exact Or.inr ⟨other,found,hcompared.mono hsub,by rwa [hworld]⟩

/-- The rows wait in the batch before the adoption is planned. -/
theorem adoptFile_buffers (file : LocalFileEntry) (remote : ResourceMetadata) (method : Str) :
    Buffers env root runId files start (Comparing root runId files start file remote)
      (adoptFile root runId baseSummary file remote method)
      fun _ => Accounted root runId files start := by
  refine TryTriple.bind (push_buffers file remote) fun _ =>
    TryTriple.bind (planned_buffers file method) fun _ =>
    TryTriple.bind (accounted_assign (plansNoAdoption_of_same fun _ => ⟨rfl,rfl⟩)) fun _ =>
    TryTriple.bind (accounted_ask (by simp)) fun memory => ?_
  refine iteInduction (motive := fun p => Buffers env root runId files start _ p _) (fun _ => ?_)
    fun _ => persistRootProgress_buffers baseSummary
  exact TryTriple.bind flushAdoptions_buffers fun _ =>
    (persistRootProgress_buffers baseSummary).pre fun _ h => h.toAccounted

theorem leaveOut_buffers (file : LocalFileEntry) (operation : Str) (error : MigrationError) :
    Buffers env root runId files start (Accounted root runId files start)
      (leaveOut root runId baseSummary file operation error)
      fun _ => Flushed root runId files start := by
  have hk : Handling (StaysFlushed env root runId files start) := handling_flushed
  exact TryTriple.bind flushAdoptions_buffers fun _ =>
    hk.bind (hk.recordFileProcessingFailure root runId file _ _ _) fun _ =>
      hk.persistRootProgress runId baseSummary

theorem leaveOutMissing_buffers (file : LocalFileEntry) :
    Buffers env root runId files start (Accounted root runId files start)
      (leaveOutMissing root runId baseSummary file)
      fun _ => Accounted root runId files start := by
  have hk : Handling (StaysFlushed env root runId files start) := handling_flushed
  have hr : Reporting fun ⦃α⦄ (p : Migrator α) => Buffers env root runId files start
      (Accounted root runId files start) p fun _ => Accounted root runId files start :=
    accounted_reporting
  have hregister := hr.register_of (fun path => accounted_ask (e := .isDir path) (by simp))
    (fun path => accounted_ask (e := .pathExists path) (by simp))
    (fun plan => accounted_assign (plansNoAdoption_of_same fun _ => ⟨rfl,rfl⟩)) file.localPath
    file.relativePath file.remotePath
  refine TryTriple.bind hr.livePlan fun plan => ?_
  refine iteInduction (motive := fun p => Buffers env root runId files start _ p _)
    (fun _ => hr.pure _) fun _ => TryTriple.bind hregister fun found => ?_
  cases found with
  | some subtree =>
    refine TryTriple.bind flushAdoptions_buffers fun _ => ?_
    have hrecord : StaysFlushed env root runId files start (do
        recordDeletedSubtree runId subtree
        persistRootProgress runId baseSummary
        return true) :=
      hk.bind (hk.reporting.recordDeletedSubtree runId subtree) fun _ =>
        hk.bind (hk.persistRootProgress runId baseSummary) fun _ => hk.pure _
    exact hrecord.post fun _ _ h => h.toAccounted
  | none =>
    refine TryTriple.bind (accounted_ask (e := .isFile file.localPath) (by simp)) fun isFile => ?_
    refine iteInduction (motive := fun p => Buffers env root runId files start _ p _)
      (fun _ => hr.pure _) fun _ => ?_
    exact TryTriple.bind (leaveOut_buffers baseSummary file _ _) fun _ =>
      TryTriple.pure fun _ h => h.toAccounted

theorem tryAdopt_buffers (previous : Str → Option FileStateRecord) (file : LocalFileEntry)
    (remote : ResourceMetadata) :
    Buffers env root runId files start (Comparing root runId files start file remote)
      (tryAdopt config root runId baseSummary previous file remote)
      fun _ => Accounted root runId files start := by
  refine iteInduction (motive := fun p => Buffers env root runId files start _ p _) (fun _ => ?_)
    fun _ => ?_
  · refine TryTriple.pre (P := Accounted root runId files start) ?_ fun _ h => h.1
    exact TryTriple.bind (accounted_assign (plansNoAdoption_of_same fun _ => ⟨rfl,rfl⟩)) fun _ =>
      TryTriple.pure fun _ h => h
  refine TryTriple.bind (TryTriple.lift (remoteMatchesLocal_buffers config file remote))
    fun answer => ?_
  cases answer with
  | error error =>
    refine iteInduction (motive := fun p => Buffers env root runId files start _ p _)
      (fun _ => ?_) fun hfatal => ?_
    · exact TryTriple.bind ((leaveOut_buffers baseSummary file _ error).pre fun _ h => h.1.1)
        fun _ => TryTriple.pure fun _ h => h.toAccounted
    · exact TryTriple.throw fun s h => ⟨h.1.1,h.2 error rfl (by simpa using hfatal)⟩
  | ok decision =>
    refine TryTriple.pre (P := Comparing root runId files start file remote) ?_ fun _ h => h.1
    refine iteInduction (motive := fun p => Buffers env root runId files start _ p _) (fun _ => ?_)
      fun _ => TryTriple.pure fun _ h => h.1
    exact TryTriple.bind (adoptFile_buffers baseSummary file remote _) fun _ =>
      TryTriple.pure fun _ h => h

theorem settleFile_buffers (previous : Str → Option FileStateRecord) {file : LocalFileEntry}
    (hfile : file ∈ files) :
    Buffers env root runId files start (Accounted root runId files start)
      (settleFile config root runId baseSummary previous file)
      fun _ => Accounted root runId files start := by
  refine TryTriple.bind (leaveOutMissing_buffers baseSummary file) fun leftOut => ?_
  refine iteInduction (motive := fun p => Buffers env root runId files start _ p _)
    (fun _ => TryTriple.pure fun _ h => h) fun _ => TryTriple.bind memory_buffers fun memory => ?_
  cases hremote : (memory.remoteSets.canonical[file.remotePath]?).filter fun resource =>
      resource.resourceType == .file with
  | none => exact TryTriple.pure fun _ h => h.1
  | some remote =>
    have hfound := (Option.filter_eq_some_iff.mp hremote).1
    exact (tryAdopt_buffers config baseSummary previous file remote).pre fun s h =>
      ⟨h.1,hfile,rfl,rfl,memory,h.2.2 List.mem_cons_self,hfound⟩

/-- Before a file is uploaded nothing is buffered any more. -/
theorem adoptOrUploadEach_buffers (previous : Str → Option FileStateRecord)
    (availableRemoteBytes : Option Nat) (pending : List LocalFileEntry)
    (hpending : pending ⊆ files) (bytesUploaded : Nat) :
    Buffers env root runId files start (Accounted root runId files start)
      (adoptOrUploadEach config root runId baseSummary previous availableRemoteBytes pending
        bytesUploaded) fun _ => Flushed root runId files start := by
  have hk : Handling (StaysFlushed env root runId files start) := handling_flushed
  induction pending generalizing bytesUploaded with
  | nil =>
    refine TryTriple.bind flushAdoptions_buffers fun _ => hk.bind hk.memory fun memory => ?_
    refine iteInduction (motive := fun p => StaysFlushed env root runId files start p)
      (fun _ => hk.pure _) fun _ => ?_
    exact hk.bind (applyMigrationUploadBatch_flushed config baseSummary) fun _ => hk.pure _
  | cons file pending ih =>
    have hrest := ih (List.cons_subset.mp hpending).2
    refine TryTriple.bind (accounted_ask (e := .isCancelled) (by simp)) fun cancelled => ?_
    refine iteInduction (motive := fun p => Buffers env root runId files start _ p _) (fun _ => ?_)
      fun _ => ?_
    · exact TryTriple.bind flushAdoptions_buffers fun _ => hk.pure _
    refine TryTriple.bind (settleFile_buffers config baseSummary previous
      (List.cons_subset.mp hpending).1) fun settled => ?_
    refine iteInduction (motive := fun p => Buffers env root runId files start _ p _)
      (fun _ => hrest _) fun _ => ?_
    refine TryTriple.bind flushAdoptions_buffers fun _ => hk.bind hk.memory fun memory => ?_
    split
    · exact hk.bind (hk.reporting.failRootWith root _ _ _ _) fun _ => hk.pure _
    · have hplanned : StaysFlushed env root runId files start
          (planned (.uploadFile file.relativePath file.remotePath
            (memory.remoteSets.canonical.holds file.remotePath .file))) :=
        flushed_assign fun _ => ⟨rfl,_,rfl,fun _ _ _ => by simp⟩
      have hqueue : StaysFlushed env root runId files start (queueUpload runId file
          (memory.remoteSets.canonical.holds file.remotePath .file)) :=
        hk.bind (flushed_state _) fun _ => hk.bind hplanned fun _ =>
          flushed_assign (plansNoAdoption_of_same fun _ => ⟨rfl,rfl⟩)
      refine TryTriple.bind hqueue fun _ => ?_
      refine iteInduction (motive := fun p => Buffers env root runId files start _ p _) (fun _ => ?_)
        fun _ => (hrest _).pre fun _ h => h.toAccounted
      refine TryTriple.bind (applyMigrationUploadBatch_flushed config baseSummary) fun result => ?_
      exact iteInduction (motive := fun p => Buffers env root runId files start _ p _)
        (fun _ => hk.pure _) fun _ => (hrest _).pre fun _ h => h.toAccounted

end Files

end Phase

/-- However the phase ends, the rows of every adoption it has planned are written, if its writes
succeed and no comparison ends the run while adoptions are buffered. -/
theorem applyAdoptOrUpload_stored {ρ : Type} (env : Environment ρ) (config : AppConfig)
    (root : SyncRootConfig) (runId : Int) (baseSummary : SyncRunSummary)
    (availableRemoteBytes : Option Nat) {start s : Traced ρ MigrationMemory}
    {result : Except MigrationError MigrationUploadResult}
    (hbatch : start.world.memory.adoptionBatch = {})
    (hrun : Exec (env.TraceStep fun s e answer => writesSucceed e answer ∧ comparesSettled s e answer)
      env.TraceDrift
      (applyAdoptOrUpload config root runId baseSummary availableRemoteBytes).run start
      (some result) s) : AdoptionsStored root runId start s := by
  have hstable : Stable env.TraceDrift fun s =>
      Flushed root runId (plannedFiles start.world.memory) start s ∧
        s.world.memory = start.world.memory :=
    stable_flushed.and (Stable.of_eq (fun _ _ hd => hd.memory_eq) (· = start.world.memory))
  have hphase : Buffers env root runId (plannedFiles start.world.memory) start
      (fun s => Flushed root runId (plannedFiles start.world.memory) start s ∧
        s.world.memory = start.world.memory)
      (applyAdoptOrUpload config root runId baseSummary availableRemoteBytes)
      fun _ => Flushed root runId (plannedFiles start.world.memory) start := by
    refine TryTriple.bind (Q := fun _ s =>
        Flushed root runId (plannedFiles start.world.memory) start s ∧
          s.world.memory = start.world.memory)
      (state_leads hstable (fun s _ s' h hstep => ?_) fun s _ s' h hstep => ?_) fun states => ?_
    · have hsame := hstep.2.1.memory_eq (by simp)
      exact ⟨h.1.same (step_grown hstep) hsame,hsame.trans h.2⟩
    · exact h.1.same (step_grown hstep) (hstep.2.1.memory_eq (by simp))
    refine TryTriple.bind (Q := fun plan s =>
        Flushed root runId (plannedFiles start.world.memory) start s ∧
          plan.files = plannedFiles start.world.memory) ?_ fun plan => ?_
    · refine TryTriple.bind (Q := fun memory s =>
          Flushed root runId (plannedFiles start.world.memory) start s ∧
            memory = start.world.memory)
        (TryTriple.perform hstable (fun _ _ => trivial) fun s answer s' h hstep => ?_)
        fun memory => ?_
      · exact ⟨h.1.same (step_grown hstep) (hstep.2.1.memory_eq (by simp)),hstep.2.1.1.trans h.2⟩
      · exact TryTriple.pure fun s h => ⟨h.1,by rw [h.2]; rfl⟩
    · exact TryTriple.of_pure (fun s h => h.2) fun hfiles =>
        (adoptOrUploadEach_buffers config baseSummary (previousStateMap states) availableRemoteBytes
          plan.files (fun _ hmem => hfiles ▸ hmem) 0).pre fun _ h => h.1.toAccounted
  have hstart : Flushed root runId (plannedFiles start.world.memory) start start :=
    ⟨⟨List.prefix_rfl,[],(List.append_nil _).symm,fun _ _ _ hmem => nomatch hmem⟩,by rw [hbatch]⟩
  have hend := hphase start (some result) s ⟨hstart,rfl⟩ hrun
  match result with
  | .ok _ => exact hend.stored
  | .error _ => exact hend.stored

section Lost

/-! Two files, the first of them as its remote copy. -/

private def adoptingRoot : SyncRootConfig :=
  { id := "r".toList, name := "r".toList, enabled := true, localPath := "/r".toList }

private def adoptingFile (name : Str) (localMd5 : Option Str) : LocalFileEntry where
  rootId := "r".toList
  localPath := ["r".toList,name]
  relativePath := name
  remotePath := "disk:/Backup/r/".toList ++ name
  normalizedRemotePath := "disk:/backup/r/".toList ++ name
  uploadSource := ["r".toList,name]
  sizeBytes := 4
  mtimeNs := none
  ctimeNs := none
  fingerprint := { kind := .sha256, value := "data".toList, fullSha256 := none, localMd5
                   reusedFromState := false }
  sqliteBackupStagingPath := none

private def adoptingStart : Traced RemoteDisk MigrationMemory where
  world := {
    disk := {
      items := [
        { components := ["r".toList], fileType := .dir, sizeBytes_lt := emptySize_lt },
        { components := ["r".toList,"f".toList], fileType := .file, sizeBytes := 4
          sizeBytes_lt := wordSize_lt
          content := "data".toList },
        { components := ["r".toList,"g".toList], fileType := .file, sizeBytes := 4
          sizeBytes_lt := wordSize_lt
          content := "data".toList }]
      names_ne := by decide
      nodup := by decide
      closed := by decide +kernel }
    remote := { resources := ∅ }
    repository := (({} : Repository).beginRun .migration).2
    tasks := []
    cancelled := false
    now := 0
    memory := {
      report := { runId := 1 }
      livePlan := some {
        rootId := "r".toList, rootLocalPath := ["r".toList]
        files := [adoptingFile "f".toList (some "ab12".toList),adoptingFile "g".toList none] }
      remoteSets := {
        canonical := Inventory.ofResources [
          { ResourceMetadata.ofFile "disk:/Backup/r/f".toList 4 with md5 := some "AB12".toList },
          .ofFile "disk:/Backup/r/g".toList 4]
        legacy := [], fromCache := false } } }

/-- The download that compares the second file fails. -/
private def adoptingScenario (kind : YandexDiskErrorKind) :
    Scenario RemoteDisk MigrationMemory where
  respond := (mockResponder ⟨none,none⟩).failing fun call => match call with
    | .download _ => some { kind, message := "not now".toList }
    | _ => none

private def adoptingEnvironment : Environment RemoteDisk :=
  failingEnvironment asciiExternals ⟨none,none⟩ fun _ _ => False

private theorem adoptingScenario_allowed (kind : YandexDiskErrorKind) :
    (adoptingScenario kind).Allowed adoptingEnvironment where
  admits := failingEnvironment_admits asciiExternals ⟨none,none⟩ (fun _ _ => False) _
  cancels _ _ hc := by simp [adoptingScenario] at hc

private def writeSucceeds (_ : Traced RemoteDisk MigrationMemory) :
    (e : Effect MigrationMemory) → e.Answer → Bool
  | .state _, .error _ => false
  | _, _ => true

private theorem writesSucceed_of_writeSucceeds {s : Traced RemoteDisk MigrationMemory}
    {e : Effect MigrationMemory} {answer : e.Answer} (h : writeSucceeds s e answer = true) :
    writesSucceed e answer := by
  cases e with
  | state call =>
    cases answer with
    | error error => cases h
    | ok result => cases call <;> trivial
  | _ => trivial

private def adoptingRun (kind : YandexDiskErrorKind) :
    Option (Except MigrationError MigrationUploadResult × Traced RemoteDisk MigrationMemory) :=
  runChecked (fun s e => s.answer (adoptingScenario kind) asciiExternals e) writeSucceeds
    (applyAdoptOrUpload defaultConfig adoptingRoot 1 {} none).run adoptingStart

private def writesFileStates : Happening MigrationMemory → Bool
  | .step (.state (.upsertFileStates _)) _ => true
  | _ => false

/-- The adoption of the first file is lost. -/
theorem adoption_lost : ¬ ∀ (ext : Externals) (config : AppConfig) (root : SyncRootConfig)
    (runId : Int) (baseSummary : SyncRunSummary) (availableRemoteBytes : Option Nat)
    (start s : Traced RemoteDisk MigrationMemory)
    (result : Except MigrationError MigrationUploadResult),
    start.world.memory.adoptionBatch = {} →
      Exec ((failingEnvironment ext ⟨none,none⟩ fun _ _ => False).TraceStep
          fun _ e answer => writesSucceed e answer)
        (failingEnvironment ext ⟨none,none⟩ fun _ _ => False).TraceDrift
        (applyAdoptOrUpload config root runId baseSummary availableRemoteBytes).run start
        (some result) s →
      AdoptionsStored root runId start s := by
  intro h
  have hend : (adoptingRun .authUnavailable).map (fun run => run.2.world.memory.report.plan) =
      some [.adoptRemoteFile "f".toList "disk:/Backup/r/f".toList "md5".toList] := by
    decide +kernel
  have hnone : ((adoptingRun .authUnavailable).all fun run =>
      run.2.trace.all fun happening => !writesFileStates happening) = true := by
    decide +kernel
  obtain ⟨⟨result,s⟩,hrun,hplan⟩ := Option.map_eq_some_iff.mp hend
  rw [hrun] at hnone
  obtain ⟨added,hadded,hstored⟩ := h asciiExternals defaultConfig adoptingRoot 1 {} none
    adoptingStart s result rfl (Scenario.exec_checked (adoptingScenario_allowed .authUnavailable)
      (fun _ _ hc => writesSucceed_of_writeSucceeds hc) hrun)
  have hmem : .adoptRemoteFile "f".toList "disk:/Backup/r/f".toList "md5".toList ∈ added := by
    have hsame : added = s.world.memory.report.plan := hadded.symm
    rw [hsame,hplan]
    exact List.mem_cons_self
  obtain ⟨file,remote,batch,_,_,hwrites⟩ := hstored _ _ _ hmem
  have hwrite := List.all_eq_true.mp hnone _ (hwrites List.mem_cons_self)
  cases hwrite

/-- An error that is the file's own leaves the adoption stored. -/
theorem adoption_stored : ∃ result s, adoptingRun .permanent = some (result,s) ∧
    s.world.memory.report.plan.length = 1 ∧ AdoptionsStored adoptingRoot 1 adoptingStart s := by
  have hend : (adoptingRun .permanent).map (fun run => run.2.world.memory.report.plan.length) =
      some 1 := by decide +kernel
  obtain ⟨⟨result,s⟩,hrun,hplan⟩ := Option.map_eq_some_iff.mp hend
  refine ⟨result,s,hrun,hplan,applyAdoptOrUpload_stored adoptingEnvironment defaultConfig adoptingRoot
    1 {} none rfl (Scenario.exec_checked (adoptingScenario_allowed .permanent) (fun s e hc => ?_) hrun)⟩
  refine ⟨writesSucceed_of_writeSucceeds hc,?_⟩
  cases e with
  | client call =>
    cases call with
    | download path =>
      rintro ⟨⟩
    | _ => trivial
  | _ => trivial

end Lost

end MigrationEngine

end YaDiskSync

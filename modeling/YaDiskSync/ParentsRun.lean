import YaDiskSync.MigrationParents

/-! Uploads go to directories that exist, and so does everything else that a whole migration makes or
moves. -/
namespace YaDiskSync

open Prog

namespace MigrationEngine

section Lodging

/-- While a root's files are uploaded: a directory is there for each of these files and for each
that is in line, and so many uploads are out at most. -/
structure Lodging (files : List LocalFileEntry) (count : Nat)
    (s : Traced RemoteDisk MigrationMemory) : Prop where
  homed : ∀ file ∈ files, s.world.remote.hasParent file.remotePath = true
  queued : ∀ candidate ∈ s.world.memory.uploadBatch,
    s.world.remote.hasParent candidate.file.remotePath = true
  parents : ParentsExist s
  crew : Crew (fun task => ¬ task.IsCreate) count s

/-- `Lodging` is kept, also by an error. -/
abbrev Lodges (env : Environment RemoteDisk) (files : List LocalFileEntry) (count : Nat) ⦃α : Type⦄
    (p : Migrator α) : Prop :=
  HousesTo env (Lodging files count) p (fun _ => Lodging files count) (Lodging files count)

variable {env : Environment RemoteDisk} {files : List LocalFileEntry} {count : Nat}
  {s s' : Traced RemoteDisk MigrationMemory}

theorem Lodging.same (h : Lodging files count s) (hremote : s'.world.remote = s.world.remote)
    (htasks : s'.world.tasks = s.world.tasks)
    (hbatch : s'.world.memory.uploadBatch = s.world.memory.uploadBatch) : Lodging files count s' := by
  refine ⟨?_,?_,?_,h.crew.of_tasks htasks⟩
  · rw [hremote]
    exact h.homed
  · rw [hremote,hbatch]
    exact h.queued
  · rw [ParentsExist,hremote,htasks]
    exact h.parents

theorem Lodging.mono {files' : List LocalFileEntry} {count' : Nat} (h : Lodging files count s)
    (hsub : files' ⊆ files) (hle : count ≤ count') : Lodging files' count' s :=
  ⟨fun file hf => h.homed file (hsub hf),h.queued,h.parents,h.crew.mono hle⟩

variable (henv : StrictRemote env)

include henv

theorem steady_lodging : Steady env (Lodging files count) where
  stable s s' h hdrift := by
    refine ⟨fun file hf => henv.stable_hasParent _ s s' (h.homed file hf) hdrift,fun candidate hc => ?_,
      henv.stable_parentsExist s s' h.parents hdrift,stable_crew s s' h.crew hdrift⟩
    rw [hdrift.memory_eq] at hc
    exact henv.stable_hasParent _ s s' (h.queued candidate hc) hdrift
  parents _ h := h.parents
  same _ _ hsame h := h.same hsame.remote hsame.tasks hsame.batch

/-- Assignments of which the files in line have a directory each. -/
theorem assign_lodges {f : MigrationMemory → MigrationMemory} (hf : ∀ s, Lodging files count s →
      ∀ candidate ∈ (f s.world.memory).uploadBatch,
        s.world.remote.hasParent candidate.file.remotePath = true) :
    Lodges env files count (perform (.updateMemory f)) := by
  have hb : Steady env (Lodging files count) := steady_lodging henv
  refine Heeds.perform hb.stable hb.parents (fun _ _ _ htarget => nomatch htarget)
    fun s _ s' h hstep => ?_
  have hw : s'.world = { s.world with memory := f s.world.memory } := hstep.2.1
  have hremote : s'.world.remote = s.world.remote := by rw [hw]
  have htasks : s'.world.tasks = s.world.tasks := by rw [hw]
  refine ⟨hremote ▸ h.homed,?_,?_,h.crew.of_tasks htasks⟩
  · rw [hw]
    exact hf s h
  · rw [ParentsExist,hremote,htasks]
    exact h.parents

theorem update_lodges {f : MigrationMemory → MigrationMemory} (hf : KeepsBatch f) :
    Lodges env files count (perform (.updateMemory f)) :=
  assign_lodges henv fun s h candidate hc => h.queued candidate (by rwa [hf] at hc)

theorem handling_lodges : Handling (Lodges env files count) := by
  have hb : Steady env (Lodging files count) := steady_lodging henv
  have hrecording : Recording (Lodges env files count) := hb.recordingTo henv fun _ h => h
  have hreporting : Reporting (Lodges env files count) := {
    toComposable := hrecording.toComposable
    report := fun _ => hb.stateTo henv (fun _ h => h) _
    readMemory := hrecording.memory
    modifySummary := fun _ _ _ => update_lodges henv fun _ => rfl
    isCancelled := hrecording.isCancelled }
  exact {
    toSequential := hrecording.toSequential
    reading := hrecording.reading
    modifySummary := fun _ => update_lodges henv fun _ => rfl
    modifySets := fun _ => update_lodges henv fun _ => rfl
    register := hreporting.register_of (fun _ => hrecording.perform _ rfl)
      (fun _ => hrecording.perform _ rfl) fun _ => update_lodges henv fun _ => rfl
    attempt := fun h => h.caught.post fun result s hs => by
      cases result with
      | ok a => exact hs
      | error error => exact hs }

theorem state_lodges (call : StateCall) : Lodges env files count (state call) :=
  (steady_lodging henv).stateTo henv (fun _ h => h) call

theorem flushAdoptions_lodges : Lodges env files count flushAdoptions :=
  (handling_lodges henv).flushAdoptions (state_lodges henv) (update_lodges henv fun _ => rfl)

/-- A file with a directory may be put in line. -/
theorem queueUpload_lodges (runId : Int) {file : LocalFileEntry} (hfile : file ∈ files)
    (isUpdate : Bool) : Lodges env files count (queueUpload runId file isUpdate) := by
  have hk : Handling (Lodges env files count) := handling_lodges henv
  refine hk.bind (state_lodges henv _) fun operationId =>
    hk.bind (update_lodges henv fun _ => rfl) fun _ => assign_lodges henv fun s h candidate hc => ?_
  rcases List.mem_append.mp hc with hc | hc
  · exact h.queued candidate hc
  · rw [List.mem_singleton.mp hc]
    exact h.homed file hfile

omit henv in
theorem houses_of_lodges {α : Type} {p : Migrator α} (h : Lodges env files count p) :
    Houses env (Lodging files count) p fun _ => Lodging files count :=
  h.weaken (fun _ h => h) (fun _ _ h => h) (fun _ h => h.parents) fun _ h => h

/-- The uploads of files that have a directory each. -/
theorem spawnCandidates_lodges (runId : Int) (baseSummary : SyncRunSummary)
    (batch : List MigrationUploadCandidate) (hbatch : ∀ candidate ∈ batch, candidate.file ∈ files) :
    Houses env (Lodging files count) (spawnCandidates runId baseSummary batch)
      fun _ => Lodging files (count+batch.length) := by
  induction batch generalizing count with
  | nil => exact Heeds.pure fun _ h => h
  | cons candidate batch ih =>
    have hk : Handling (Lodges env files count) := handling_lodges henv
    have ih : ∀ count, Houses env (Lodging files count) (spawnCandidates runId baseSummary batch)
        fun _ => Lodging files (count+batch.length) := fun _ =>
      ih fun other ho => hbatch other (List.mem_cons_of_mem _ ho)
    have hskip : Houses env (Lodging files count) (spawnCandidates runId baseSummary batch)
        fun _ => Lodging files (count+(candidate :: batch).length) :=
      (ih count).post fun _ _ h => h.mono (List.Subset.refl _) (by simp)
    refine Heeds.bind (houses_of_lodges hk.reporting.livePlan) fun plan => ?_
    refine iteInduction (motive := fun p => Houses env _ p _) (fun _ => hskip) fun _ =>
      Heeds.bind (houses_of_lodges (hk.register _ _ _)) fun found => ?_
    cases found with
    | some subtree =>
      exact Heeds.bind (houses_of_lodges (hk.state rfl)) fun _ =>
        Heeds.bind (houses_of_lodges (hk.reporting.recordDeletedSubtree runId subtree)) fun _ =>
        Heeds.bind (houses_of_lodges (hk.persistRootProgress runId baseSummary)) fun _ => hskip
    | none =>
      have hspawn : Houses env (Lodging files count) (perform (.spawn (.upload candidate.operationId
          candidate.file candidate.isUpdate migrationCancelledText)))
          fun _ => Lodging files (count+1) := by
        have hb : Steady env (Lodging files count) := steady_lodging henv
        have hhome : ∀ s, Lodging files count s → ∀ target, (candidate.file.remotePath = target) →
            s.world.remote.hasParent target = true :=
          fun s h target htarget => htarget ▸ h.homed _ (hbatch _ List.mem_cons_self)
        refine Heeds.perform hb.stable hb.parents (fun s h target htarget => ?_)
          fun s answer s' h hstep => ?_
        · exact hhome s h target (Option.some.inj htarget)
        · have hw := hstep.2.1
          have hremote : s'.world.remote = s.world.remote := hstep.2.1.remote_eq (by simp)
          have hmemory : s'.world.memory = s.world.memory := hstep.2.1.memory_eq (by simp)
          refine ⟨hremote ▸ h.homed,?_,?_,h.crew.spawn (by simp [Task.IsCreate]) hstep⟩
          · rw [hremote,hmemory]
            exact h.queued
          · refine h.parents.spawn (fun made hmakes => hhome s h _ ?_) hstep
            cases hmakes
            rfl
      refine Heeds.bind hspawn fun _ => (ih (count+1)).post fun _ _ h => ?_
      rwa [Nat.add_assoc,Nat.add_comm 1] at h

theorem joinMigrationUploads_lodges (root : SyncRootConfig) (runId : Int)
    (baseSummary : SyncRunSummary) (result : MigrationUploadResult) :
    Houses env (Lodging files count) (joinMigrationUploads root runId baseSummary count result)
      fun _ => Lodging files 0 := by
  induction count generalizing result with
  | zero => exact Heeds.pure fun _ h => h
  | succ count ih =>
    have hk : Handling (Lodges env files count) := handling_lodges henv
    have hjoin : Houses env (Lodging files (count+1)) (perform .joinNext) fun joined s =>
        match joined with
        | some (.uploaded _) => Lodging files count s
        | some (.created ..) => False
        | none => Lodging files 0 s := by
      have hb : Steady env (Lodging files (count+1)) := steady_lodging henv
      refine Heeds.perform hb.stable hb.parents (fun _ _ _ htarget => nomatch htarget)
        fun s joined s' h hstep => ?_
      have hremote : s'.world.remote = s.world.remote := hstep.2.1.remote_eq (by simp)
      have hmemory : s'.world.memory = s.world.memory := hstep.2.1.memory_eq (by simp)
      have hparents : ParentsExist s' := h.parents.step (by simp) (by simp) hstep
      have hqueued : ∀ candidate ∈ s'.world.memory.uploadBatch,
          s'.world.remote.hasParent candidate.file.remotePath = true := by
        rw [hremote,hmemory]
        exact h.queued
      cases h.crew.join hstep with
      | none ht hw => exact ⟨hremote ▸ h.homed,hqueued,hparents,crew_nil (by rw [hw]; exact ht)⟩
      | @some task outcome hkind hyields _ _ hcrew _ _ =>
        cases task with
        | createDirectory => exact absurd trivial hkind
        | upload operationId file isUpdate text =>
          obtain ⟨result,rfl⟩ := hyields
          exact ⟨hremote ▸ h.homed,hqueued,hparents,hcrew⟩
    refine Heeds.bind hjoin fun joined => ?_
    match joined with
    | none => exact Heeds.pure fun _ h => h
    | some (.created ..) => exact Heeds.of_pure (fun _ h => h) fun h => h.elim
    | some (.uploaded outcome) =>
      dsimp only
      cases outcome.result with
      | ok _ =>
        exact Heeds.bind (houses_of_lodges (hk.recordMigrationUploaded root runId baseSummary
          _ _ _ fun _ => state_lodges henv _)) fun _ => ih _
      | error failure =>
        exact Heeds.bind (houses_of_lodges
          (hk.recordMigrationUploadFailure root runId baseSummary outcome failure)) fun _ => ih _

theorem applyMigrationUploadBatch_lodges (config : AppConfig) (root : SyncRootConfig) (runId : Int)
    (baseSummary : SyncRunSummary) :
    Houses env (Lodging files 0) (applyMigrationUploadBatch config root runId baseSummary)
      fun _ => Lodging files 0 := by
  have hrounds : ∀ fuel result files, Houses env (Lodging files 0)
      (uploadRounds config root runId baseSummary fuel result) fun _ => Lodging files 0 := by
    intro fuel
    induction fuel with
    | zero => exact fun _ _ => Heeds.pure fun _ h => h
    | succ fuel ih =>
      intro result files
      have hb : Steady env (Lodging files 0) := steady_lodging henv
      refine Heeds.bind (hb.memory henv) fun memory => ?_
      refine iteInduction (motive := fun p => Houses env _ p _) (fun _ => Heeds.pure fun _ h => h.1)
        fun _ => ?_
      refine Heeds.pre (P := Lodging (memory.uploadBatch.map MigrationUploadCandidate.file ++ files) 0)
        ?_ fun s h => { h.1 with homed := fun file hf => ?_ }
      swap
      · rcases List.mem_append.mp hf with hf | hf
        · obtain ⟨candidate,hc,rfl⟩ := List.mem_map.mp hf
          exact h.1.queued candidate (h.2 ▸ hc)
        · exact h.1.homed file hf
      have hsub := (takeMigrationUploadBatch_perm (max config.sync.uploadConcurrency 1)
        config.sync.largeFileNameSizeOnlyMinBytes memory.uploadBatch 0 false).subset
      dsimp only at hsub ⊢
      generalize takeMigrationUploadBatch _ _ memory.uploadBatch 0 false = next at hsub ⊢
      have hfile : ∀ candidate ∈ next.1 ++ next.2, candidate.file ∈
          memory.uploadBatch.map MigrationUploadCandidate.file ++ files := fun candidate hc =>
        List.mem_append_left _ (List.mem_map_of_mem (hsub hc))
      refine Heeds.bind (houses_of_lodges (assign_lodges henv fun s h candidate hc =>
        h.homed _ (hfile candidate (List.mem_append_right _ hc)))) fun _ => ?_
      refine Heeds.bind (spawnCandidates_lodges henv runId baseSummary next.1 fun candidate hc =>
        hfile candidate (List.mem_append_left _ hc)) fun _ => ?_
      refine Heeds.bind ((joinMigrationUploads_lodges henv root runId baseSummary result).pre
        fun s h => h.mono (List.Subset.refl _) (by omega)) fun result => ?_
      exact (ih result _).post fun _ _ h => h.mono (List.subset_append_right _ _) le_rfl
  have hb : Steady env (Lodging files 0) := steady_lodging henv
  exact Heeds.bind (hb.memory henv) fun memory => (hrounds _ _ _).pre fun _ h => h.1

omit henv in
/-- After the moves each live file has its directory. -/
theorem Charted.lodging {c : Str} {legacyRoots : List Str} {plan : LiveScanPlan}
    (h : Charted c legacyRoots plan (c :: plan.directories.map LocalDirectoryEntry.remotePath) s)
    (hplan : HousedPlan c plan) : Lodging plan.files 0 s where
  homed file hf := by
    obtain ⟨parent,hlast,hplace⟩ := hplan.housed file hf
    refine RemoteDisk.hasParent_of_getLast? hlast (h.2 parent ?_).1
    rcases hplace with rfl | ⟨directory,hd,rfl⟩
    · exact List.mem_cons_self
    · exact List.mem_cons_of_mem _ (List.mem_map_of_mem hd)
  queued candidate hc := by
    rw [h.1.queue] at hc
    cases hc
  parents := parentsExist_of_idle h.1.idle
  crew := crew_nil h.1.idle

theorem applyAdoptOrUpload_lodges {c : Str} {legacyRoots : List Str} {plan : LiveScanPlan}
    (hplan : HousedPlan c plan) (config : AppConfig) (root : SyncRootConfig) (runId : Int)
    (baseSummary : SyncRunSummary) (availableRemoteBytes : Option Nat) :
    Houses env
      (Charted c legacyRoots plan (c :: plan.directories.map LocalDirectoryEntry.remotePath))
      (applyAdoptOrUpload config root runId baseSummary availableRemoteBytes)
      fun _ => Lodging plan.files 0 := by
  have hb : Steady env (Charted c legacyRoots plan
      (c :: plan.directories.map LocalDirectoryEntry.remotePath)) := steady_charted
  have hlodging : Steady env (Lodging plan.files 0) := steady_lodging henv
  have hk : Handling (Lodges env plan.files 0) := handling_lodges henv
  have hflush : Lodges env plan.files 0 flushAdoptions := flushAdoptions_lodges henv
  refine Heeds.bind (hb.state henv _) fun states => Heeds.bind (livePlan_charted henv) fun live => ?_
  refine Heeds.of_pure (ψ := live = plan) (fun s h => h.2) fun hlive => ?_
  subst hlive
  refine Heeds.pre (P := Lodging live.files 0) ?_ fun s h => h.1.lodging hplan
  refine (hlodging.recording henv).adoptOrUploadEach config root runId baseSummary _ _
    (houses_of_lodges hflush) (fun file _ => houses_of_lodges ?_)
    (fun file hf isUpdate => houses_of_lodges (queueUpload_lodges henv runId hf isUpdate))
    (applyMigrationUploadBatch_lodges henv config root runId baseSummary) 0
  refine hk.settleFile config root runId baseSummary hflush _ file fun remote => ?_
  exact hk.tryAdopt config root runId baseSummary hflush (hk.adoptFile root runId baseSummary hflush
    (fun f hf _ => update_lodges henv fun memory => (hf memory).2)
    fun _ => update_lodges henv fun _ => rfl) _

end Lodging

section Roots

variable {env : Environment RemoteDisk} {s s' : Traced RemoteDisk MigrationMemory}

theorem steady_idle : Steady env Idle where
  stable := stable_noTasks
  parents _ h := parentsExist_of_idle h
  same _ _ hsame h := hsame.tasks.trans h

/-- No task is out, after an error either. -/
abbrev Idles (env : Environment RemoteDisk) ⦃α : Type⦄ (p : Migrator α) : Prop :=
  HousesTo env Idle p (fun _ => Idle) Idle

theorem houses_of_idles {α : Type} {p : Migrator α} (h : Idles env p) :
    Houses env Idle p fun _ => Idle :=
  h.weaken (fun _ h => h) (fun _ _ h => h) (fun _ h => parentsExist_of_idle h) fun _ h => h

theorem perform_idles {e : Effect MigrationMemory} (he : e.onTasks = false)
    (htarget : e.target = none) : Idles env (perform e) :=
  Heeds.perform stable_noTasks (fun _ h => parentsExist_of_idle h)
    (fun _ _ _ hsome => by rw [htarget] at hsome; cases hsome)
    fun _ _ _ h hstep => (hstep.2.1.tasks_eq he).trans h

variable (henv : StrictRemote env)

include henv

theorem handling_idles : Handling (Idles env) := by
  have hrecording : Recording (Idles env) := steady_idle.recordingTo henv fun _ h => h
  exact {
    toSequential := hrecording.toSequential
    reading := hrecording.reading
    modifySummary := fun _ => perform_idles rfl rfl
    modifySets := fun _ => perform_idles rfl rfl
    register := hrecording.reporting.register_of (fun _ => hrecording.perform _ rfl)
      (fun _ => hrecording.perform _ rfl) fun _ => perform_idles rfl rfl
    attempt := fun h => h.caught.post fun result s hs => by
      cases result with
      | ok a => exact hs
      | error error => exact hs }

theorem settleRoot_houses {c : Str} {legacyRoots : List Str} {plan : LiveScanPlan}
    (hplan : HousedPlan c plan) (config : AppConfig) (root : SyncRootConfig) (runId : Int)
    (baseSummary : SyncRunSummary) (scanReport : ScanReport) (availableRemoteBytes : Option Nat) :
    Houses env
      (Charted c legacyRoots plan (c :: plan.directories.map LocalDirectoryEntry.remotePath))
      (settleRoot config root runId baseSummary scanReport availableRemoteBytes) fun _ => Idle := by
  have hk : Handling (Idles env) := handling_idles henv
  have hrest : ∀ uploaded : MigrationUploadResult, Idles env (do
      cleanupStagingFiles scanReport.files
      let cancelled ← isCancelled
      if uploaded.shouldStop || cancelled then
        finishRootCancelledOrFailed root
        return { shouldStop := true, bytesUploaded := some uploaded.bytesUploaded }
      else
        let stopAfterDelete ← applyDeletes root runId baseSummary
        finishRootCancelledOrFailed root
        persistRootProgress runId baseSummary
        return ({ shouldStop := stopAfterDelete, bytesUploaded := some uploaded.bytesUploaded } :
          MigrationRootResult)) := by
    intro uploaded
    refine hk.bind (hk.cleanupStagingFiles _) fun _ => hk.bind hk.isCancelled fun cancelled => ?_
    refine iteInduction (motive := fun p => Idles env p) (fun _ => ?_) fun _ => ?_
    · exact hk.bind (hk.reporting.finishRootCancelledOrFailed root) fun _ => hk.pure _
    · refine hk.bind (hk.applyDeletes root runId baseSummary (fun _ => perform_idles rfl rfl)
        fun _ => perform_idles rfl rfl) fun stop => ?_
      exact hk.bind (hk.reporting.finishRootCancelledOrFailed root) fun _ =>
        hk.bind (hk.persistRootProgress runId baseSummary) fun _ => hk.pure _
  exact Heeds.bind (applyAdoptOrUpload_lodges henv hplan config root runId baseSummary _)
    fun uploaded => (houses_of_idles (hrest uploaded)).pre fun s h => h.crew.tasks_nil

/-- What is known of the plan once the sets are recorded. -/
theorem recordRemoteResources_houses {c : Str} {legacyRoots : List Str} {plan : LiveScanPlan}
    (config : AppConfig) (root : SyncRootConfig) (sets : RemoteSets) :
    Houses env (Charted c legacyRoots plan []) (recordRemoteResources config root sets)
      fun _ s => Charted c legacyRoots plan [] s ∧ HousedPlan c plan := by
  have hb : Steady env (Charted c legacyRoots plan []) := steady_charted
  have hreplace : ∀ records, Houses env (Charted c legacyRoots plan [])
      (state (.replaceRemoteResourcesForRoot root.id records))
      fun _ s => Charted c legacyRoots plan [] s ∧ HousedPlan c plan := by
    intro records
    refine Heeds.bind (Q := fun _ s => Charted c legacyRoots plan [] s ∧ HousedPlan c plan)
      (Heeds.perform hb.stable hb.parents (fun _ _ _ htarget => nomatch htarget)
        fun s answer s' h hstep => ?_) fun answer => ?_
    · have hsame := sameWork_of_isSteady
        (e := .state (.replaceRemoteResourcesForRoot root.id records)) henv rfl hstep
      have hfresh : HousedPlan s.world.memory.rootSummary.canonicalRemotePath plan :=
        hstep.1 plan h.1.live
      rw [h.1.home] at hfresh
      exact ⟨h.same hsame,hfresh⟩
    · cases answer with
      | ok result => exact Heeds.pure fun _ h => h
      | error error => exact Heeds.throw fun s h => hb.parents s h.1
  refine Heeds.bind (hreplace _) fun _ => Heeds.of_pure (fun s h => h.2) fun hplan => ?_
  refine Heeds.pre (P := Charted c legacyRoots plan []) ?_ fun s h => h.1
  refine Heeds.bind ((hb.recording henv).perform .now rfl) fun now => ?_
  exact (hb.state henv _).post fun _ s h => ⟨h,hplan⟩

theorem migrateRoot_houses (hmoves : ConfinedMoves env) {c : Str} {legacyRoots : List Str}
    (hapart : ∀ legacy ∈ legacyRoots, Apart c legacy) {plan : LiveScanPlan} {sets : RemoteSets}
    (ext : Externals) (config : AppConfig) (root : SyncRootConfig) (runId : Int)
    (baseSummary : SyncRunSummary) (scanReport : ScanReport) (availableRemoteBytes : Option Nat) :
    Houses env (Surveyed c legacyRoots plan sets)
      (migrateRoot ext config root runId baseSummary scanReport sets availableRemoteBytes)
      fun _ => Idle := by
  have hsurveyed : Steady env (Surveyed c legacyRoots plan sets) := steady_surveyed
  have hb : Steady env (Charted c legacyRoots plan []) := steady_charted
  have hk : Handling (Idles env) := handling_idles henv
  have hgive : Houses env Idle (giveUpRoot root scanReport) fun _ => Idle :=
    houses_of_idles (hk.giveUpRoot root scanReport)
  have hcancelled : Houses env Idle isCancelled fun _ => Idle := houses_of_idles hk.isCancelled
  refine Heeds.bind (modifySets_charted hsurveyed fun s h => ⟨h,built_nil⟩) fun _ => ?_
  refine Heeds.bind (recordRemoteResources_houses henv config root sets) fun _ =>
    Heeds.of_pure (fun s h => h.2) fun hplan => ?_
  refine Heeds.bind ((tryTopLevelMove_charted henv hmoves hapart root runId).pre fun s h => h.1)
    fun stop => Heeds.bind (hb.recording henv).isCancelled fun cancelled => ?_
  refine iteInduction (motive := fun p => Houses env _ p _)
    (fun _ => hgive.pre fun s h => h.1.idle) fun _ => ?_
  refine Heeds.bind (applyMergeMoves_charted henv hmoves hapart ext config root runId baseSummary
    hplan) fun stop => ?_
  cases stop with
  | true => exact Heeds.bind (hcancelled.pre fun s h => h.1.1.idle) fun cancelled => hgive
  | false =>
    have hmoved : Steady env (Charted c legacyRoots plan
        (c :: plan.directories.map LocalDirectoryEntry.remotePath)) := steady_charted
    refine Heeds.bind ((hmoved.recording henv).isCancelled.pre fun s h => h.2 rfl) fun cancelled => ?_
    exact iteInduction (motive := fun p => Houses env _ p _)
      (fun _ => hgive.pre fun s h => h.1.idle) fun _ =>
        settleRoot_houses henv hplan config root runId baseSummary scanReport _

/-- A root of which nothing has been done yet. -/
structure Ready (c : Str) (s : Traced RemoteDisk MigrationMemory) : Prop where
  idle : Idle s
  queue : s.world.memory.uploadBatch = []
  home : s.world.memory.rootSummary.canonicalRemotePath = c

/-- A root of which the scan has been turned into a plan. -/
structure Planned (c : Str) (plan : LiveScanPlan) (s : Traced RemoteDisk MigrationMemory) : Prop
    extends Ready c s where
  live : s.world.memory.livePlan = some plan

omit henv in
theorem Ready.same {c : Str} (h : Ready c s) (hsame : SameWork s s') : Ready c s' :=
  ⟨hsame.tasks.trans h.idle,hsame.batch.trans h.queue,hsame.home.trans h.home⟩

omit henv in
theorem steady_ready {c : Str} : Steady env (Ready c) where
  stable := stable_of_idle (fun _ h => h.idle) (fun _ _ hsame h => h.same hsame)
    fun _ h => ⟨h.idle,h.queue,h.home⟩
  parents _ h := parentsExist_of_idle h.idle
  same _ _ hsame h := h.same hsame

omit henv in
theorem steady_planned {c : Str} {plan : LiveScanPlan} : Steady env (Planned c plan) where
  stable := stable_of_idle (fun _ h => h.idle)
    (fun _ _ hsame h => ⟨h.toReady.same hsame,hsame.plan.trans h.live⟩)
    fun _ h => ⟨⟨h.idle,h.queue,h.home⟩,h.live⟩
  parents _ h := parentsExist_of_idle h.idle
  same _ _ hsame h := ⟨h.toReady.same hsame,hsame.plan.trans h.live⟩

theorem planScan_houses {c : Str} (root : SyncRootConfig) (runId : Int)
    (baseSummary : SyncRunSummary) (scanReport : ScanReport) :
    Houses env (Ready c) (planScan root runId baseSummary scanReport) fun plan => Planned c plan := by
  have hb : Steady env (Ready c) := steady_ready
  have hk := hb.recording henv
  refine Heeds.bind (hk.reporting.recordScanFindings _) fun _ => ?_
  have hscan : ∀ plan, Houses env (Ready c) (setScanPlan plan) fun _ => Ready c :=
    fun _ => hb.assign fun _ => ⟨rfl,rfl,rfl,rfl⟩
  refine Heeds.bind (fromScanReport_of hk.toComposable (fun _ => hk.perform _ rfl) hscan _ _)
    fun plan => ?_
  have hset : Houses env (Ready c) (setLivePlan plan) fun _ => Planned c plan := by
    refine Heeds.perform hb.stable hb.parents (fun _ _ _ htarget => nomatch htarget)
      fun s _ s' h hstep => ?_
    have hw : s'.world = { s.world with memory :=
      { s.world.memory with livePlan := some plan } } := hstep.2.1
    refine ⟨⟨?_,?_,?_⟩,?_⟩
    · rw [Idle,hw]
      exact h.idle
    · rw [hw]
      exact h.queue
    · rw [hw]
      exact h.home
    · rw [hw]
  have hplanned : Steady env (Planned c plan) := steady_planned
  have hrest := hplanned.recording henv
  refine Heeds.bind hset fun _ => Heeds.bind (hrest.recordSummary _ fun _ => rfl) fun _ => ?_
  exact Heeds.bind (hrest.reporting.recordDeletedSubtrees runId _) fun _ =>
    Heeds.bind (hrest.persistRootProgress runId baseSummary) fun _ => Heeds.pure fun _ h => h

theorem listingState_houses {B : Traced RemoteDisk MigrationMemory → Prop} (hb : Steady env B)
    (hidle : ∀ s, B s → Idle s) (call : StateCall) :
    HousesTo env B (listingState call) (fun _ => B) Idle := by
  refine Heeds.bind (hb.asking henv rfl) fun answer => ?_
  cases answer with
  | ok result => exact Heeds.pure fun _ h => h
  | error error => exact Heeds.throw hidle

/-- Without the cache every set is an inventory of its own. -/
theorem loadRemoteSets_houses {c : Str} {plan : LiveScanPlan} (root : SyncRootConfig)
    (forceRemoteRescan : Bool) :
    HousesTo env (Planned c plan) (loadRemoteSets root c plan forceRemoteRescan)
      (fun sets => Surveyed c root.legacyRemotePaths plan sets) Idle := by
  have hb : Steady env (Planned c plan) := steady_planned
  have hcached : HousesTo env (Planned c plan) (cachedRemoteSets root c forceRemoteRescan)
      (fun sets s => Planned c plan s ∧ sets = none) Idle := by
    have hnone : HousesTo env (Planned c plan) (Pure.pure none : Listing (Option RemoteSets))
        (fun sets s => Planned c plan s ∧ sets = none) Idle := Heeds.pure fun s h => ⟨h,rfl⟩
    refine iteInduction (motive := fun p => HousesTo env _ p _ _) (fun _ => hnone) fun _ => ?_
    refine Heeds.bind (listingState_houses henv hb (fun _ h => h.idle) _) fun status => ?_
    cases status with
    | none => exact hnone
    | some status =>
      refine Heeds.bind (hb.asking henv rfl) fun now => ?_
      refine iteInduction (motive := fun p => HousesTo env _ p _ _) (fun _ => ?_) fun _ => hnone
      refine Heeds.bind (Q := fun _ _ => False) (Heeds.bind (Q := fun _ _ => False)
        (Heeds.perform hb.stable hb.parents (fun _ _ _ htarget => nomatch htarget)
          fun s answer s' h hstep => hstep.1) fun answer => Heeds.of_pure (fun _ h => h) False.elim)
        fun cached => Heeds.of_pure (fun _ h => h) False.elim
  have hlegacy : ∀ {B : Traced RemoteDisk MigrationMemory → Prop}, Steady env B →
      (∀ s, B s → Idle s) → ∀ legacyRoots, HousesTo env B
        (legacyInventories plan legacyRoots) (fun inventories s => B s ∧
          ∀ legacy ∈ inventories, legacy.rootPath ∈ legacyRoots) Idle := by
    intro B hb hidle legacyRoots
    induction legacyRoots with
    | nil => exact Heeds.pure fun s h => ⟨h,fun _ hl => absurd hl List.not_mem_nil⟩
    | cons legacyRoot legacyRoots ih =>
      refine Heeds.bind ((migrationInventory_tells henv hb hidle legacyRoot _).post fun _ _ h => h.1)
        fun resources => Heeds.bind ih fun rest => Heeds.pure fun s h => ⟨h.1,fun legacy hl => ?_⟩
      rcases List.mem_cons.mp hl with rfl | hl
      · exact List.mem_cons_self
      · exact List.mem_cons_of_mem _ (h.2 legacy hl)
  refine Heeds.bind hcached fun sets => Heeds.of_pure (fun s h => h.2) fun hnone => ?_
  subst hnone
  refine Heeds.bind ((migrationInventory_tells henv hb (fun _ h => h.idle) c _).pre fun s h => h.1)
    fun canonical => ?_
  refine Heeds.bind (hlegacy (hb.knowing (fun _ h => h.idle) (Tells c canonical)) (fun _ h => h.1.idle)
    _) fun legacy => Heeds.pure fun s h => ?_
  exact ⟨h.1.1.idle,h.1.1.queue,h.1.1.home,h.1.1.live,h.2,
    fun q hq => ⟨(h.1.2 q hq).1,Or.inr (h.1.2 q hq).2⟩⟩

section Run

variable (hmoves : ConfinedMoves env) (ext : Externals) (config : AppConfig)

include hmoves

theorem executeRoot_houses {c : Str} (root : SyncRootConfig)
    (hapart : ∀ legacy ∈ root.legacyRemotePaths, Apart c legacy) (runId : Int)
    (baseSummary : SyncRunSummary) (options : ScanOptions) (availableRemoteBytes : Option Nat)
    (forceRemoteRescan : Bool) :
    Houses env (Ready c) (executeRoot ext config root runId baseSummary options c
      availableRemoteBytes forceRemoteRescan) fun _ => Idle := by
  have hb : Steady env (Ready c) := steady_ready
  have hk := hb.recording henv
  have hi : Handling (Idles env) := handling_idles henv
  have hfail : ∀ rootStatus operation errorKind errorMessage, Houses env Idle
      (failRootWith root rootStatus operation errorKind errorMessage) fun _ => Idle :=
    fun _ _ _ _ => houses_of_idles (hi.reporting.failRootWith ..)
  have hclean : ∀ files, Houses env Idle (cleanupStagingFiles files) fun _ => Idle :=
    fun _ => houses_of_idles (hi.cleanupStagingFiles _)
  have hpure : ∀ result : MigrationRootResult, Houses env Idle
      (Pure.pure result : Migrator MigrationRootResult) fun _ => Idle :=
    fun _ => Heeds.pure fun _ h => h
  have hscan : Houses env (Ready c) (scanRootWithRepository options
      (SyncEngine.scanRootOf root c)) fun _ => Ready c := by
    refine Heeds.bind (hb.asking henv rfl) fun answer => ?_
    cases answer with
    | ok previousStates => exact hb.asking henv rfl
    | error error => exact Heeds.pure fun _ h => h
  refine Heeds.bind hscan fun answer => ?_
  cases answer with
  | error error =>
    exact Heeds.bind ((hfail ..).pre fun s h => h.idle) fun _ => hpure _
  | ok scanReport =>
    refine Heeds.bind (planScan_houses henv root runId baseSummary scanReport) fun plan => ?_
    cases localRemoteCollision plan.directories plan.files with
    | some message =>
      exact Heeds.bind ((hfail ..).pre fun s h => h.idle) fun _ =>
        Heeds.bind (hclean _) fun _ => hpure _
    | none =>
      refine Heeds.bind (Heeds.caught (loadRemoteSets_houses henv root forceRemoteRescan))
        fun answer => ?_
      cases answer with
      | ok sets => exact migrateRoot_houses henv hmoves hapart ext config root runId baseSummary _ _
      | error error =>
        refine Heeds.bind (houses_of_idles (hi.state rfl)) fun _ => ?_
        exact iteInduction (motive := fun p => Houses env _ p _)
          (fun _ => Heeds.bind (hfail ..) fun _ => Heeds.bind (hclean _) fun _ => hpure _)
          fun _ => Heeds.bind (hfail ..) fun _ => Heeds.bind (hclean _) fun _ => hpure _

omit hmoves in
/-- What a run keeps outside of its roots, if it says of the remote and the tasks only. -/
theorem rounds_houses {B D : Traced RemoteDisk MigrationMemory → Prop} (hb : Steady env B)
    (herror : ∀ s, B s → D s) (hoff : ∀ s s' : Traced RemoteDisk MigrationMemory,
      s'.world.remote = s.world.remote → s'.world.tasks = s.world.tasks → B s → B s') :
    Rounds fun ⦃α⦄ (p : Migrator α) => HousesTo env B p (fun _ => B) D := by
  have hsteady : ∀ {e : Effect MigrationMemory}, isRoutine e = true → isSteady e = true := by
    intro e he
    cases e with
    | client call =>
      rw [show call = .diskInfo from beq_iff_eq.mp he]
      rfl
    | _ => first | rfl | cases he
  have hassign : ∀ {D : Traced RemoteDisk MigrationMemory → Prop} f,
      HousesTo env B (perform (.updateMemory f)) (fun _ => B) D := fun f =>
    Heeds.perform hb.stable hb.parents (fun _ _ _ htarget => nomatch htarget) fun s _ s' h hstep =>
      hoff s s' (hstep.2.1.remote_eq (by simp)) (hstep.2.1.tasks_eq rfl) h
  exact {
    toSequential := Heeds.sequential herror
    routine := fun _ he => hb.asking henv (hsteady he)
    call := fun _ => hb.stateTo henv herror _
    modifySummary := fun _ => hassign _
    modifyReport := fun _ => hassign _
    restart := fun _ _ => hassign _
    acquire := fun owner staleAfter => by
      have hacquire : HousesTo env B (RunLock.tryAcquireRunLock owner staleAfter :
          Locking MigrationMemory (Option RunLockGuard)) (fun _ => B) B :=
        RunLock.tryAcquireRunLock_of (K := fun ⦃α⦄ (p : Locking MigrationMemory α) =>
            HousesTo env B p (fun _ => B) B) (Heeds.sequential fun _ h => h)
          (hb.asking henv rfl) (fun _ => hb.asking henv rfl) fun _ _ => hb.asking henv rfl
      exact hacquire.caught.post fun result s hs => by
        cases result with
        | ok a => exact hs
        | error error => exact hs }

theorem executeRunRoot_houses (root : SyncRootConfig)
    (hapart : ∀ c, canonicalRemotePath config.instanceConfig.remoteRoot root.localPath
      root.remotePathOverride = .ok c → ∀ legacy ∈ root.legacyRemotePaths, Apart c legacy)
    (runId : Int) (options : ScanOptions) (availableRemoteBytes : Option Nat)
    (forceRemoteRescan : Bool) :
    Houses env Idle (executeRunRoot ext config root runId options availableRemoteBytes
      forceRemoteRescan) fun _ => Idle := by
  have hr : Rounds fun ⦃α⦄ (p : Migrator α) => Houses env Idle p fun _ => Idle :=
    rounds_houses henv steady_idle (fun _ h => parentsExist_of_idle h)
      fun _ _ _ htasks h => htasks.trans h
  unfold executeRunRoot
  cases hcanonical : canonicalRemotePath config.instanceConfig.remoteRoot root.localPath
      root.remotePathOverride with
  | error error => exact hr.throw _
  | ok c =>
    have hb : Steady env (Ready c) := steady_ready
    have hstart : Houses env Idle (perform (.updateMemory (startRoot root c)))
        fun _ => Ready c := by
      have hi : Steady env Idle := steady_idle
      refine Heeds.perform hi.stable hi.parents (fun _ _ _ htarget => nomatch htarget)
        fun s _ s' h hstep => ?_
      have hw : s'.world = { s.world with memory := startRoot root c s.world.memory } := hstep.2.1
      exact ⟨by rw [Idle,hw]; exact h,by rw [hw]; rfl,by rw [hw]; rfl⟩
    refine Heeds.bind hstart fun _ => Heeds.bind (hb.state henv _) fun _ =>
      Heeds.bind (hb.asking henv rfl) fun isDir => ?_
    refine iteInduction (motive := fun p => Houses env _ p _) (fun _ => ?_) fun _ => ?_
    · exact (hr.bind (hr.recordMissingRoot root c) fun _ => hr.bind hr.finishRootSummary fun _ =>
        hr.pure _).pre fun s h => h.idle
    · refine Heeds.bind (hb.recording henv).memory fun before => Heeds.bind (executeRoot_houses henv
        hmoves ext config root (hapart c hcanonical) runId _ _ _ _) fun result => ?_
      refine hr.bind hr.finishRootSummary fun _ => ?_
      refine iteInduction (motive := fun p => Houses env Idle p _) (fun _ => hr.pure _) fun _ => ?_
      exact hr.bind hr.isCancelled fun _ => hr.pure _

/-- The legacy roots of an enabled root and its canonical one are apart. -/
def RootsApart (config : AppConfig) : Prop :=
  ∀ root ∈ SyncEngine.enabledRoots config, ∀ c, canonicalRemotePath config.instanceConfig.remoteRoot
    root.localPath root.remotePathOverride = .ok c → ∀ legacy ∈ root.legacyRemotePaths, Apart c legacy

theorem runOnce_houses (hapart : RootsApart config) (options : MigrationRunOptions) :
    Houses env Idle (runOnce ext config options) fun _ => ParentsExist := by
  have hr : Rounds fun ⦃α⦄ (p : Migrator α) => Houses env Idle p fun _ => Idle :=
    rounds_houses henv steady_idle (fun _ h => parentsExist_of_idle h)
      fun _ _ _ htasks h => htasks.trans h
  have hparents : Steady env ParentsExist := {
    stable := henv.stable_parentsExist
    parents := fun _ h => h
    same := fun s s' hsame h => by
      rw [ParentsExist,hsame.remote,hsame.tasks]
      exact h }
  have hend : Rounds fun ⦃α⦄ (p : Migrator α) => Houses env ParentsExist p fun _ => ParentsExist :=
    rounds_houses henv hparents (fun _ h => h) fun s s' hremote htasks h => by
      rw [ParentsExist,hremote,htasks]
      exact h
  have hlocked : ∀ guard, Houses env Idle (runLocked ext config options.forceRemoteRescan guard)
      fun _ => ParentsExist := by
    intro guard
    refine Heeds.bind (steady_idle.state henv _) fun _ =>
      Heeds.bind (steady_idle.state henv _) fun runId => Heeds.bind (hr.restart _ fun _ => ⟨_,_,rfl⟩)
      fun _ => ?_
    have hexecute := hr.executeRun_of ext config (fun root hroot runId options available rescan =>
      executeRunRoot_houses henv hmoves ext config root (hapart root hroot) runId options available
        rescan) runId (options.forceRemoteRescan || config.sync.forceRemoteRescan)
    refine Heeds.bind (hexecute.caught.post fun result s hs => ?_) fun execution =>
      hend.endRun runId guard execution
    cases result with
    | ok a => exact parentsExist_of_idle hs
    | error error => exact hs
  have hvalid : Houses env Idle (ensureValidConfig ext config) fun _ => Idle :=
    iteInduction (motive := fun p => Houses env Idle p _) (fun _ => hr.pure _) fun _ => hr.throw _
  refine Heeds.bind hvalid fun _ => Heeds.bind (hr.acquire _ _) fun acquired => ?_
  cases acquired with
  | error error => exact Heeds.throw fun _ h => parentsExist_of_idle h
  | ok found =>
    cases found with
    | none => exact Heeds.throw fun _ h => parentsExist_of_idle h
    | some guard => exact hlocked guard

end Run

end Roots

section Whole

variable {env : Environment RemoteDisk} (henv : StrictRemote env) (hmoves : ConfinedMoves env)
  (config : AppConfig) (hapart : RootsApart config) (options : MigrationRunOptions)
  {s : Traced RemoteDisk MigrationMemory} (hidle : s.world.tasks = [])

include henv hmoves hapart hidle

/-- With fresh inventories and closed plans, whatever a migration makes or moves has its directory
when it asks for that, and the uploads it has out keep theirs. -/
theorem runOnce_parentsHoused (s' : Traced RemoteDisk MigrationMemory) :
    (∀ e, Asks (env.TraceStep FreshStep) env.TraceDrift (runOnce env.ext config options).run s e s' →
      TargetHoused e s') ∧
    ∀ result, Exec (env.TraceStep FreshStep) env.TraceDrift (runOnce env.ext config options).run s
      result s' → ParentsExist s' := by
  have hrun := runOnce_houses henv hmoves env.ext config hapart options
  refine ⟨fun e hasks => hrun.asked s e s' hidle hasks,fun result hexec => ?_⟩
  have hkept := hrun.triple s result s' hidle hexec
  match result with
  | none => exact hkept
  | some (.ok _) => exact hkept
  | some (.error _) => exact hkept

end Whole

section Moved

/-! Two legacy roots: the directory of one becomes the canonical root, the file of the other is moved
into it, and a file that is in neither is uploaded. -/

/-- Nothing is taken away but what is at a path or below it. -/
private def confines (disk moved : RemoteDisk) (source : Str) : Bool :=
  disk.resources.keys.all fun q => !disk.isDirectory q || moved.isDirectory q ||
    (pathSegments source).isPrefixOf (pathSegments q)

/-- The strict client that also refuses moves to where no directory is. -/
private def movingResponder (quota : QuotaInfo) : Responder RemoteDisk := fun tree remote call =>
  match call with
  | .moveResource source target overwrite =>
    let moved := remote.mockAnswer quota tree (.moveResource source target overwrite)
    if remote.hasParent target && confines remote moved.2 source then moved
    else (.error RemoteDisk.pathDoesntExist,remote)
  | call => strictResponder quota tree remote call

private def movingEnvironment : Environment RemoteDisk :=
  { mockEnvironment asciiExternals ⟨none,none⟩ fun _ _ => False with
    client := fun tree remote call answer remote' =>
      (answer,remote') = movingResponder ⟨none,none⟩ tree remote call }

private theorem movingEnvironment_strict : StrictRemote movingEnvironment := by
  have hstrict := strictEnvironment_strict asciiExternals ⟨none,none⟩ fun _ _ => False
  have hsame : ∀ {tree remote call answer remote'},
      movingEnvironment.client tree remote call answer remote' →
        (∀ source target overwrite, call ≠ .moveResource source target overwrite) →
          (strictEnvironment asciiExternals ⟨none,none⟩ fun _ _ => False).client tree remote call
            answer remote' := by
    intro tree remote call answer remote' h hmove
    cases call with
    | moveResource source target overwrite => exact absurd rfl (hmove _ _ _)
    | _ => exact h
  have hmakes : ∀ {call : ClientCall} {made}, call.makes = some made →
      ∀ source target overwrite, call ≠ .moveResource source target overwrite := by
    rintro call made hmakes source target overwrite rfl
    cases hmakes
  exact {
    refused := fun h hm => hstrict.refused (hsame h (hmakes hm)) hm
    made := fun h hm => hstrict.made (hsame h (hmakes hm)) hm
    read := fun h hr => hstrict.read (hsame h (by rintro _ _ _ rfl; cases hr)) hr
    removed := fun h => hstrict.removed (hsame h (by simp))
    needsParent := fun h hm => hstrict.needsParent (hsame h (hmakes hm)) hm
    creates := fun h => hstrict.creates (hsame h (by simp)) }

private theorem movingEnvironment_confined : ConfinedMoves movingEnvironment := by
  intro tree remote source target overwrite answer remote' h q hnot hdirectory
  have h : (answer,remote') = _ := h
  rw [movingResponder] at h
  split at h
  · rename_i hok
    rw [Bool.and_eq_true,confines,List.all_eq_true] at hok
    have hmem : q ∈ remote.resources.keys := by
      rw [Std.TreeMap.mem_keys,Std.TreeMap.mem_iff_isSome_getElem?]
      unfold RemoteDisk.isDirectory at hdirectory
      cases hfound : remote.resources[q]? with
      | none => rw [hfound] at hdirectory; cases hdirectory
      | some resource => rfl
    have hkept := hok.2 q hmem
    rw [Bool.or_eq_true,Bool.or_eq_true,hdirectory,List.isPrefixOf_iff_prefix] at hkept
    rcases hkept with (hkept | hkept) | hbelow
    · cases hkept
    · rw [show remote' = _ from congrArg Prod.snd h]
      exact hkept
    · exact absurd hbelow hnot
  · rw [show remote' = remote from congrArg Prod.snd h]
    exact hdirectory

private def movedConfig : AppConfig :=
  { defaultConfig with
    roots := [{
      id := "r".toList, name := "r".toList, enabled := true, localPath := "/r".toList
      legacyRemotePaths := ["disk:/Old".toList,"disk:/Older".toList] }] }

private theorem movedConfig_apart : RootsApart movedConfig := by
  intro root hroot c hc legacy hlegacy
  have hroots : SyncEngine.enabledRoots movedConfig = movedConfig.roots := by decide
  rw [hroots] at hroot
  obtain rfl := List.mem_singleton.mp hroot
  have hhome : canonicalRemotePath movedConfig.instanceConfig.remoteRoot "/r".toList none =
      .ok "disk:/Backup/r".toList := by decide
  obtain rfl := Except.ok.inj (hhome.symm.trans hc)
  have hall : ∀ legacy ∈ ["disk:/Old".toList,"disk:/Older".toList],
      ¬ pathSegments "disk:/Backup/r".toList <+: pathSegments legacy ∧
        ¬ pathSegments legacy <+: pathSegments "disk:/Backup/r".toList := by decide
  exact hall legacy hlegacy

private def movedStart : Traced RemoteDisk MigrationMemory where
  world := {
    disk := {
      items := [
        { components := ["r".toList], fileType := .dir, sizeBytes_lt := emptySize_lt },
        { components := ["r".toList,"a".toList], fileType := .dir, sizeBytes_lt := emptySize_lt },
        { components := ["r".toList,"a".toList,"b".toList], fileType := .dir
          sizeBytes_lt := emptySize_lt },
        { components := ["r".toList,"a".toList,"b".toList,"f".toList], fileType := .file
          sizeBytes := 1, sizeBytes_lt := byteSize_lt, content := "1".toList },
        { components := ["r".toList,"g".toList], fileType := .file
          sizeBytes := 1, sizeBytes_lt := byteSize_lt, content := "1".toList }]
      names_ne := by decide
      nodup := by decide
      closed := by decide +kernel }
    remote := {
      resources := Inventory.ofResources [.ofDirectory "disk:/Old".toList,
        .ofDirectory "disk:/Old/a".toList,.ofDirectory "disk:/Older".toList,
        .ofFile "disk:/Older/g".toList 1]
      contents := Std.TreeMap.ofList [("disk:/Older/g".toList,"1".toList)] }
    repository := {}
    tasks := []
    cancelled := false
    now := 0
    memory := { report := { runId := 1 } } }

private def movedScenario : Scenario RemoteDisk MigrationMemory :=
  { respond := movingResponder ⟨none,none⟩ }

private theorem movedScenario_allowed : movedScenario.Allowed movingEnvironment where
  admits := ⟨fun _ _ _ => rfl,rfl,fun _ => rfl⟩
  cancels _ _ hc := by simp [movedScenario] at hc

private def listsCheck (disk : RemoteDisk) (path : Str) (resource : ResourceMetadata) : Bool :=
  (pathSegments path).isPrefixOf (pathSegments resource.path) &&
    disk.resources.holds resource.path resource.resourceType

private def housedCheck (c : Str) (plan : LiveScanPlan) : Bool :=
  (plan.directories.all fun directory =>
    (pathSegments c).isPrefixOf (pathSegments directory.remotePath)) &&
  plan.files.all fun file => (parentRemotePaths file.remotePath).getLast?.any fun parent =>
    parent == c || plan.directories.any fun directory => directory.remotePath == parent

private def freshCheck (s : Traced RemoteDisk MigrationMemory) (e : Effect MigrationMemory)
    (answer : e.Answer) : Bool :=
  let settled := s.settled movedScenario e
  match e, answer with
  | .client (.metadata path), .ok resource => listsCheck settled.world.remote path resource
  | .client (.listRecursive path _), .ok listed =>
    listed.all fun resource => listsCheck settled.world.remote path resource
  | .state (.listRemoteResourcesForRoot _), _ => false
  | .state (.replaceRemoteResourcesForRoot ..), _ => settled.world.memory.livePlan.all fun plan =>
    housedCheck settled.world.memory.rootSummary.canonicalRemotePath plan
  | _, _ => true

private theorem lists_of_check {disk : RemoteDisk} {path : Str} {resource : ResourceMetadata}
    (h : listsCheck disk path resource = true) : disk.Lists path resource := by
  rw [listsCheck,Bool.and_eq_true,List.isPrefixOf_iff_prefix] at h
  exact h

private theorem housedPlan_of_check {c : Str} {plan : LiveScanPlan}
    (h : housedCheck c plan = true) : HousedPlan c plan := by
  simp only [housedCheck,Bool.and_eq_true,List.all_eq_true,List.isPrefixOf_iff_prefix,
    Option.any_eq_true,Bool.or_eq_true,beq_iff_eq,List.any_eq_true] at h
  exact ⟨h.1,h.2⟩

private theorem freshStep_of_check {s : Traced RemoteDisk MigrationMemory}
    {e : Effect MigrationMemory} {answer : e.Answer} (h : freshCheck s e answer = true) :
    FreshStep (s.settled movedScenario e) e answer := by
  cases e with
  | client call =>
    cases call with
    | metadata path =>
      rintro resource rfl
      exact lists_of_check h
    | listRecursive path prefixes =>
      rintro listed rfl resource hr
      exact lists_of_check (List.all_eq_true.mp h resource hr)
    | _ => trivial
  | state call =>
    cases call with
    | listRemoteResourcesForRoot rootId => cases h
    | replaceRemoteResourcesForRoot rootId records =>
      intro plan hplan
      have h : Option.all _ _ = true := h
      rw [hplan] at h
      exact housedPlan_of_check h
    | _ => trivial
  | _ => trivial

private def movedOptions : MigrationRunOptions := { lockOwner := "a".toList, staleLockAfter := 3600 }

private def movedRun :
    Option (Except MigrationError MigrationRunReport × Traced RemoteDisk MigrationMemory) :=
  runChecked (fun s e => s.answer movedScenario asciiExternals e) freshCheck
    (runOnce asciiExternals movedConfig movedOptions).run movedStart

/-- What a run made and moved, where to. -/
private def targets (trace : List (Happening MigrationMemory)) : List Str :=
  trace.filterMap fun
    | .step e _ => e.target
    | .landed .. => none

/-- A root that takes a create, a move of each kind and an upload. -/
theorem movedParents_housed : ∃ result s, movedRun = some (result,s) ∧
    targets s.trace = ["disk:/Backup".toList,"disk:/Backup/r".toList,"disk:/Backup".toList,
      "disk:/Backup/r/a/b".toList,"disk:/Backup/r/g".toList,"disk:/Backup/r/a/b/f".toList] ∧
    (∀ e s', Asks (movingEnvironment.TraceStep FreshStep) movingEnvironment.TraceDrift
      (runOnce asciiExternals movedConfig movedOptions).run movedStart e s' → TargetHoused e s') ∧
    ParentsExist s := by
  have hend : movedRun.map (fun run => targets run.2.trace) = some ["disk:/Backup".toList,
      "disk:/Backup/r".toList,"disk:/Backup".toList,"disk:/Backup/r/a/b".toList,
      "disk:/Backup/r/g".toList,"disk:/Backup/r/a/b/f".toList] := by decide +kernel
  obtain ⟨⟨result,s⟩,hrun,htargets⟩ := Option.map_eq_some_iff.mp hend
  have hhoused := fun s' : Traced RemoteDisk MigrationMemory => runOnce_parentsHoused
    movingEnvironment_strict movingEnvironment_confined movedConfig movedConfig_apart movedOptions
    (show movedStart.world.tasks = [] from rfl) s'
  exact ⟨result,s,hrun,htargets,fun e s' => (hhoused s').1 e,(hhoused s).2 _
    (Scenario.exec_checked movedScenario_allowed (fun _ _ hc => freshStep_of_check hc) hrun)⟩

end Moved

end MigrationEngine

end YaDiskSync

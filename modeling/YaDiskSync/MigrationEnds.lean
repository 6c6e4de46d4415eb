import YaDiskSync.Trace
import YaDiskSync.MigrationFrame

/-! How the work of a migration on a root ends: by an error only after an answer that ends it. What
holds of the steps up to there, of the steps after it and of the counters a root stores is left to
the property at hand. -/
namespace YaDiskSync

open Prog

/-- Calls whose errors the inventories of a root keep to themselves. -/
def StateCall.readsCache : StateCall → Bool
  | .getRootRemoteInventoryStatus _ | .listRemoteResourcesForRoot _ => true
  | _ => false

namespace MigrationEngine

/-- Whether the operation opened last for the root is the move of a legacy root. -/
def movingRootAfter (moving : Bool) : Happening MigrationMemory → Bool
  | .step (.state (.appendOperationStarted record)) _ =>
    record.operation == "migration_move_legacy_root".toList
  | .step (.state (.upsertSyncRoot ..)) _ => false
  | _ => moving

def movingRoot (trace : List (Happening MigrationMemory)) : Bool :=
  trace.foldl movingRootAfter false

/-- The answers that end the work on a root by an error; those of an inventory do so after the
move of a legacy root only. -/
def endsWhile (moving : Bool) : (e : Effect MigrationMemory) → e.Answer → Bool
  | .state call, .error _ => !call.readsCache
  | .removeFile _, .error error => error.kind != .notFound
  | .client (.createDirectory _), .error _ => true
  | .client (.download _), .error error => isStopError error.kind
  | .client (.metadata _), .error error => moving && error.kind != .notFound
  | .client (.listRecursive ..), .error error => moving && error.kind != .notFound
  | _, _ => false

theorem endsWhile_of_false {e : Effect MigrationMemory} {answer : e.Answer} (moving : Bool)
    (h : endsWhile false e answer = true) : endsWhile moving e answer = true := by
  cases moving with
  | false => exact h
  | true =>
    cases e with
    | client call =>
      cases call <;> cases answer <;> first | exact h | cases h
    | state call => cases answer <;> exact h
    | removeFile path => cases answer <;> exact h
    | _ => exact h

/-- Steps that store no counters, assign nothing and scan nothing. -/
def isPlain : Effect MigrationMemory → Bool
  | .state (.updateRunProgress ..) | .state (.finishRun ..) | .scan .. | .updateMemory _ => false
  | _ => true

/-- Assignments that take nothing back of what is counted and upload nothing. -/
def KeepsCounts (f : MigrationMemory → MigrationMemory) : Prop :=
  ∀ memory, (f memory).report.summary.counts = memory.report.summary.counts ∧
    memory.rootSummary.counts.Grows (f memory).rootSummary.counts

theorem grows_failed (error : Option Str) : Grows fun summary => { summary with
    failedFiles := summary.failedFiles+1, errorSummary := error } := fun _ => by
  simp [Counts.Grows,Counts.bytes,MigrationRootSummary.counts,MigrationRootSummary.toSync,
    RootSyncSummary.counts]

theorem grows_skipped : Grows fun summary => { summary with
    skippedFiles := summary.skippedFiles+1 } := fun _ => by
  simp [Counts.Grows,Counts.bytes,MigrationRootSummary.counts,MigrationRootSummary.toSync,
    RootSyncSummary.counts]

section Rules

variable {ρ : Type} {env : Environment ρ}
  {allowed : Traced ρ MigrationMemory → (e : Effect MigrationMemory) → e.Answer → Prop}
  {C I J L : Traced ρ MigrationMemory → Prop}

/-- From `P` to `Q`, or to `L` by an error. -/
abbrev Ends (env : Environment ρ)
    (allowed : Traced ρ MigrationMemory → (e : Effect MigrationMemory) → e.Answer → Prop)
    (C P : Traced ρ MigrationMemory → Prop) {ε α : Type}
    (p : ExceptT ε (Prog (Effect MigrationMemory) Effect.Answer) α)
    (Q : α → Traced ρ MigrationMemory → Prop) (L : Traced ρ MigrationMemory → Prop) : Prop :=
  TryTriple (env.TraceStep allowed) env.TraceDrift P p Q L C

/-- Properties of programs that work on a root. -/
abbrev Works (env : Environment ρ)
    (allowed : Traced ρ MigrationMemory → (e : Effect MigrationMemory) → e.Answer → Prop)
    (C I L : Traced ρ MigrationMemory → Prop) ⦃α : Type⦄ (p : Migrator α) : Prop :=
  Ends env allowed C I p (fun _ => I) L

/-- What the steps of a root keep if they store nothing. -/
structure KeptPlain (env : Environment ρ)
    (allowed : Traced ρ MigrationMemory → (e : Effect MigrationMemory) → e.Answer → Prop)
    (C I : Traced ρ MigrationMemory → Prop) : Prop where
  stable : Stable env.TraceDrift I
  cut : ∀ s, I s → C s
  keep : ∀ {s : Traced ρ MigrationMemory} {e : Effect MigrationMemory} {answer : e.Answer}
    {s' : Traced ρ MigrationMemory}, isPlain e = true → I s →
      env.TraceStep allowed s e answer s' → I s'
  assign : ∀ {s : Traced ρ MigrationMemory} {f : MigrationMemory → MigrationMemory} {answer : Unit}
    {s' : Traced ρ MigrationMemory}, KeepsCounts f → I s →
      env.TraceStep allowed s (.updateMemory f) answer s' → I s'

/-- Up to the answer that ends the work on a root `I` holds, and `L` from there. -/
structure EndRules (runId : Int) (baseSummary : SyncRunSummary) (env : Environment ρ)
    (allowed : Traced ρ MigrationMemory → (e : Effect MigrationMemory) → e.Answer → Prop)
    (C I L : Traced ρ MigrationMemory → Prop) : Prop extends KeptPlain env allowed C I where
  lost : KeptPlain env allowed C L
  ended : ∀ {s : Traced ρ MigrationMemory} {e : Effect MigrationMemory} {answer : e.Answer}
    {s' : Traced ρ MigrationMemory}, isPlain e = true →
      endsWhile (movingRoot s.trace) e answer = true → I s →
        env.TraceStep allowed s e answer s' → L s'
  persist : Works env allowed C I L (persistRootProgress runId baseSummary)

namespace KeptPlain

variable (kept : KeptPlain env allowed C I)

include kept

theorem ask {ε : Type} {D : Traced ρ MigrationMemory → Prop} {e : Effect MigrationMemory}
    (he : isPlain e = true) : Ends env allowed C I (asking ε e) (fun _ => I) D :=
  TryTriple.perform kept.stable kept.cut fun _ _ _ h hstep => kept.keep he h hstep

theorem set {ε : Type} {D : Traced ρ MigrationMemory → Prop} {f : MigrationMemory → MigrationMemory}
    (hf : KeepsCounts f) : Ends env allowed C I (asking ε (.updateMemory f)) (fun _ => I) D :=
  TryTriple.perform kept.stable kept.cut fun _ _ _ h hstep => kept.assign hf h hstep

theorem state {call : StateCall} (he : isPlain (.state call) = true) :
    Ends env allowed C I (MigrationEngine.state call) (fun _ => I) I := by
  refine TryTriple.bind (kept.ask he) fun answer => ?_
  cases answer with
  | ok result => exact TryTriple.pure fun _ h => h
  | error error => exact TryTriple.throw fun _ h => h

end KeptPlain

namespace EndRules

variable {runId : Int} {baseSummary : SyncRunSummary}
  (rules : EndRules runId baseSummary env allowed C I L)

include rules

omit rules in
theorem composable : Composable (Works env allowed C I L) :=
  ⟨fun _ => TryTriple.pure fun _ h => h,fun hp hf => TryTriple.bind hp hf⟩

/-- An answer that ends the work on a root leaves it lost. -/
theorem askEnds {ε : Type} {D : Traced ρ MigrationMemory → Prop} {e : Effect MigrationMemory}
    (he : isPlain e = true) : Ends env allowed C I (asking ε e)
      (fun answer s => I s ∧ (endsWhile false e answer = true → L s)) D :=
  TryTriple.perform rules.stable rules.cut fun _ _ _ h hstep => ⟨rules.keep he h hstep,fun hends =>
    rules.ended he (endsWhile_of_false _ hends) h hstep⟩

theorem call {call : StateCall} (he : isPlain (.state call) = true)
    (hcache : call.readsCache = false) : Works env allowed C I L (MigrationEngine.state call) := by
  refine TryTriple.bind (rules.askEnds he) fun answer => ?_
  cases answer with
  | ok result => exact TryTriple.pure fun _ h => h.1
  | error error => exact TryTriple.throw fun _ h => h.2 (by simp [endsWhile,hcache])

theorem modifySummary {f : MigrationRootSummary → MigrationRootSummary} (hf : Grows f) :
    Works env allowed C I L (MigrationEngine.modifySummary f) :=
  rules.set fun memory => ⟨rfl,hf memory.rootSummary⟩

theorem assignQuietly {f : MigrationMemory → MigrationMemory}
    (hreport : ∀ memory, (f memory).report.summary.counts = memory.report.summary.counts)
    (hroot : ∀ memory, (f memory).rootSummary = memory.rootSummary) :
    Works env allowed C I L (MigrationEngine.perform (.updateMemory f)) :=
  rules.set fun memory => ⟨hreport memory,by rw [hroot]; exact .refl _⟩

theorem modifyReport {f : MigrationRunReport → MigrationRunReport}
    (hf : ∀ report, (f report).summary.counts = report.summary.counts) :
    Works env allowed C I L (MigrationEngine.modifyReport f) :=
  rules.assignQuietly (fun memory => hf memory.report) fun _ => rfl

theorem modifySets (f : RemoteSets → RemoteSets) :
    Works env allowed C I L (MigrationEngine.modifySets f) :=
  rules.assignQuietly (fun _ => rfl) fun _ => rfl

theorem cleanupStagingFiles (files : List LocalFileEntry) :
    Works env allowed C I L (MigrationEngine.cleanupStagingFiles files) := by
  induction files with
  | nil => exact TryTriple.pure fun _ h => h
  | cons file files ih =>
    unfold MigrationEngine.cleanupStagingFiles
    cases file.sqliteBackupStagingPath with
    | none => exact ih
    | some path =>
      refine TryTriple.bind (rules.askEnds (e := .removeFile path) rfl) fun answer => ?_
      cases answer with
      | ok _ => exact ih.pre fun _ h => h.1
      | error error =>
        refine iteInduction (motive := fun p => Ends env allowed C _ p _ _)
          (fun _ => ih.pre fun _ h => h.1) fun hne => TryTriple.throw fun _ h => h.2 ?_
        simpa [endsWhile] using hne

theorem reporting : Reporting (Works env allowed C I L) where
  toComposable := composable
  report {call} h := rules.call (by cases call <;> first | rfl | cases h)
    (by cases call <;> first | rfl | cases h)
  readMemory := rules.ask rfl
  modifySummary _ hf _ := rules.modifySummary hf
  isCancelled := rules.ask rfl

theorem memory : Works env allowed C I L MigrationEngine.memory := rules.ask rfl

theorem isCancelled : Works env allowed C I L MigrationEngine.isCancelled := rules.ask rfl

theorem livePlan : Works env allowed C I L MigrationEngine.livePlan := rules.reporting.livePlan

theorem register (localPath : LocalPath) (relativePath remotePath : Str) :
    Works env allowed C I L
      (MigrationEngine.registerMissingLocalPath localPath relativePath remotePath) :=
  rules.reporting.register_of (fun _ => rules.ask rfl) (fun _ => rules.ask rfl)
    (fun _ => rules.assignQuietly (fun _ => rfl) fun _ => rfl) localPath relativePath remotePath

variable (ext : Externals) (config : AppConfig) (root : SyncRootConfig)

theorem recordCallFailure (operationId : Int)
    (legacyRemotePath canonicalRemotePath operation : Str) (error : YandexDiskError) :
    Works env allowed C I L (MigrationEngine.recordCallFailure root operationId legacyRemotePath
      canonicalRemotePath operation error) := by
  have hk : Composable (Works env allowed C I L) := composable
  have hrecord : Works env allowed C I L (MigrationEngine.recordMigrationFailure root legacyRemotePath
      canonicalRemotePath operation error) :=
    hk.bind (rules.call rfl rfl) fun _ => rules.call rfl rfl
  exact hk.bind (rules.call rfl rfl) fun _ => hk.bind hrecord fun _ =>
    rules.modifySummary (grows_failed _)

theorem recordFileProcessingFailure (file : LocalFileEntry)
    (operation operationRemotePath : Str) {error : MigrationError}
    (herror : (perFileProcessingError error).isSome = true) :
    Works env allowed C I L (MigrationEngine.recordFileProcessingFailure root runId file operation
      operationRemotePath error) := by
  have hk : Composable (Works env allowed C I L) := composable
  obtain ⟨⟨errorKind,errorMessage⟩,hsome⟩ := Option.isSome_iff_exists.1 herror
  unfold MigrationEngine.recordFileProcessingFailure
  rw [hsome]
  refine hk.bind (rules.call rfl rfl) fun operationId => ?_
  cases skippableLocalProcessingError error with
  | some skipped =>
    exact hk.bind (rules.call rfl rfl) fun _ => hk.bind (rules.call rfl rfl) fun _ =>
      hk.bind (rules.call rfl rfl) fun _ => hk.bind (rules.call rfl rfl) fun _ =>
        rules.modifySummary grows_skipped
  | none =>
    exact hk.bind (rules.call rfl rfl) fun _ => hk.bind (rules.call rfl rfl) fun _ =>
      hk.bind (rules.call rfl rfl) fun _ => hk.bind (rules.call rfl rfl) fun _ =>
        rules.modifySummary (grows_failed _)

section Directories

/-- A directory that cannot be created ends the work on the root. -/
theorem createDirectoryOperation (remotePath : Str) :
    Works env allowed C I L (MigrationEngine.createDirectoryOperation runId remotePath) := by
  refine TryTriple.bind (rules.call rfl rfl) fun operationId => ?_
  refine TryTriple.bind (rules.askEnds (e := .client (.createDirectory remotePath)) rfl) fun answer => ?_
  cases answer with
  | ok _ =>
    refine TryTriple.bind ((rules.call rfl rfl : Works env allowed C I L _).pre fun _ h => h.1) fun _ => ?_
    exact rules.modifyReport fun _ => rfl
  | error error =>
    refine TryTriple.pre (P := L) ?_ fun _ h => h.2 rfl
    refine TryTriple.bind (rules.lost.state rfl) fun _ => TryTriple.bind (Q := fun _ => L)
      (rules.lost.set fun memory => ⟨rfl,grows_failed _ memory.rootSummary⟩) fun _ => TryTriple.throw fun _ h => h

theorem ensureParents (parents : List Str) :
    Works env allowed C I L (MigrationEngine.ensureParents runId parents) := by
  have hk : Composable (Works env allowed C I L) := composable
  induction parents with
  | nil => exact hk.pure _
  | cons parent parents ih =>
    refine hk.bind rules.isCancelled fun cancelled => ?_
    refine iteInduction (motive := fun p => Works env allowed C I L p) (fun _ => hk.pure _) fun _ => ?_
    refine hk.bind rules.memory fun memory => ?_
    refine iteInduction (motive := fun p => Works env allowed C I L p) (fun _ => ih) fun _ => ?_
    exact hk.bind (rules.createDirectoryOperation parent) fun _ =>
      hk.bind (rules.modifySets _) fun _ => ih

theorem ensureDirectory (remotePath : Str) :
    Works env allowed C I L (MigrationEngine.ensureDirectory runId remotePath) := by
  have hk : Composable (Works env allowed C I L) := composable
  refine hk.bind rules.memory fun memory => ?_
  refine iteInduction (motive := fun p => Works env allowed C I L p) (fun _ => hk.pure _) fun _ => ?_
  refine hk.bind (rules.ensureParents _) fun _ => hk.bind rules.isCancelled fun cancelled => ?_
  refine iteInduction (motive := fun p => Works env allowed C I L p) (fun _ => hk.pure _) fun _ => ?_
  exact hk.bind (rules.createDirectoryOperation remotePath) fun _ => rules.modifySets _

end Directories

section Moves

/-- While the operation opened last is the move of a legacy root. -/
abbrev Moving (I : Traced ρ MigrationMemory → Prop) (s : Traced ρ MigrationMemory) : Prop :=
  I s ∧ movingRoot s.trace = true

theorem stable_moving : Stable env.TraceDrift (Moving I) := by
  refine fun s s' h hdrift => ⟨rules.stable s s' h.1 hdrift,?_⟩
  rcases hdrift.trace_eq with htrace | ⟨task,outcome,htrace⟩
  · rw [htrace]
    exact h.2
  · rw [htrace,movingRoot,List.foldl_append]
    exact h.2

omit rules in
theorem moving_step {s s' : Traced ρ MigrationMemory} {e : Effect MigrationMemory}
    {answer : e.Answer} (hmoving : movingRootAfter true (.step e answer) = true)
    (h : movingRoot s.trace = true) (hstep : env.TraceStep allowed s e answer s') :
    movingRoot s'.trace = true := by
  rw [hstep.2.2,movingRoot,List.foldl_append]
  change movingRootAfter (movingRoot s.trace) _ = true
  rw [h]
  exact hmoving

/-- A step between the move and the inventory that follows it. -/
theorem ask_moving {ε : Type} {D : Traced ρ MigrationMemory → Prop} {e : Effect MigrationMemory}
    (he : isPlain e = true)
    (hmoving : ∀ answer, movingRootAfter true (.step e answer) = true) :
    Ends env allowed C (Moving I) (asking ε e)
      (fun answer s => Moving I s ∧ (endsWhile true e answer = true → L s)) D :=
  TryTriple.perform rules.stable_moving (fun s h => rules.cut s h.1) fun _ answer _ h hstep =>
    ⟨⟨rules.keep he h.1 hstep,moving_step (hmoving answer) h.2 hstep⟩,fun hends =>
      rules.ended he (h.2.symm ▸ hends) h.1 hstep⟩

theorem call_moving {call : StateCall} (he : isPlain (.state call) = true)
    (hmoving : ∀ answer, movingRootAfter true (.step (.state call) answer) = true)
    (hcache : call.readsCache = false) :
    Ends env allowed C (Moving I) (MigrationEngine.state call) (fun _ => Moving I) L := by
  refine TryTriple.bind (rules.ask_moving he hmoving) fun answer => ?_
  cases answer with
  | ok result => exact TryTriple.pure fun _ h => h.1
  | error error => exact TryTriple.throw fun _ h => h.2 (by simp [endsWhile,hcache])

theorem opensMove {record : OperationRecord}
    (hrecord : record.operation = "migration_move_legacy_root".toList) :
    Ends env allowed C I (MigrationEngine.state (.appendOperationStarted record))
      (fun _ => Moving I) L := by
  have hask : Ends env allowed C I (MigrationEngine.perform (.state (.appendOperationStarted record)))
      (fun answer s => match answer with
        | .ok _ => Moving I s
        | .error _ => L s) L := by
    refine TryTriple.perform rules.stable rules.cut fun s answer s' h hstep => ?_
    cases answer with
    | ok result =>
      refine ⟨rules.keep rfl h hstep,?_⟩
      rw [hstep.2.2,movingRoot,List.foldl_append]
      simp [movingRootAfter,hrecord]
    | error error => exact rules.ended rfl rfl h hstep
  refine TryTriple.bind hask fun answer => ?_
  cases answer with
  | ok result => exact TryTriple.pure fun _ h => h
  | error error => exact TryTriple.throw fun _ h => h

theorem assign_moving {f : MigrationMemory → MigrationMemory} (hf : KeepsCounts f) :
    Ends env allowed C (Moving I) (MigrationEngine.perform (.updateMemory f)) (fun _ => Moving I)
      L :=
  TryTriple.perform rules.stable_moving (fun s h => rules.cut s h.1) fun _ _ _ h hstep =>
    ⟨rules.assign hf h.1 hstep,moving_step rfl h.2 hstep⟩

/-- The inventory after the move: an error of it ends the work on the root. -/
theorem inventoryAfterMove (target : Str) :
    Ends env allowed C (Moving I) (liftM (migrationInventory target []).run :
      Migrator (Except YandexDiskError Inventory)) (fun answer s => match answer with
        | .ok _ => I s
        | .error _ => L s) L := by
  have hask : ∀ call : ClientCall, Ends env allowed C (Moving I) (MigrationEngine.ask (.client call))
      (fun answer s => Moving I s ∧ (endsWhile true (.client call) answer = true → L s)) L :=
    fun call => rules.ask_moving rfl fun _ => rfl
  have hinventory : Ends env allowed C (Moving I) (migrationInventory target []) (fun _ => I) L := by
    refine TryTriple.bind (hask _) fun answer => ?_
    cases answer with
    | error error =>
      refine iteInduction (motive := fun p => Ends env allowed C _ p _ _)
        (fun _ => TryTriple.pure fun _ h => h.1.1) fun hne => TryTriple.throw fun _ h =>
          h.2 (by simpa [endsWhile] using hne)
    | ok rootMetadata =>
      refine TryTriple.bind ((hask _).pre fun _ h => h.1) fun answer => ?_
      cases answer with
      | error error =>
        refine iteInduction (motive := fun p => Ends env allowed C _ p _ _)
          (fun _ => TryTriple.pure fun _ h => h.1.1) fun hne => TryTriple.throw fun _ h =>
            h.2 (by simpa [endsWhile] using hne)
      | ok listed => exact TryTriple.pure fun _ h => h.1.1
  refine hinventory.catch.post fun answer s h => ?_
  cases answer with
  | ok _ => exact h
  | error _ => exact h

theorem moveLegacyRoot (index : Nat) (source target : Str) :
    Works env allowed C I L (MigrationEngine.moveLegacyRoot root runId index source target) := by
  refine TryTriple.bind (rules.opensMove rfl) fun operationId => ?_
  have hmove : Ends env allowed C (Moving I)
      (MigrationEngine.client (.moveResource source target false)) (fun _ => Moving I) L :=
    (rules.ask_moving (e := .client (.moveResource source target false)) rfl fun _ => rfl).post
      fun _ _ h => h.1
  refine TryTriple.bind hmove fun answer => ?_
  cases answer with
  | ok _ =>
    refine TryTriple.bind (rules.call_moving rfl (fun _ => rfl) rfl) fun _ =>
      TryTriple.bind (rules.call_moving rfl (fun _ => rfl) rfl) fun _ =>
      TryTriple.bind (rules.assign_moving fun _ => ⟨rfl,.refl _⟩) fun _ =>
      TryTriple.bind (rules.assign_moving fun _ => ⟨rfl,.refl _⟩) fun _ =>
      TryTriple.bind (rules.inventoryAfterMove target) fun inventory => ?_
    cases inventory with
    | error error => exact TryTriple.throw fun _ h => h
    | ok canonical =>
      exact TryTriple.bind (rules.modifySets _) fun _ =>
        TryTriple.bind (rules.modifySets _) fun _ => TryTriple.pure fun _ h => h
  | error error =>
    exact TryTriple.bind ((rules.recordCallFailure root _ _ _ _ _).pre fun _ h => h.1) fun _ =>
      TryTriple.pure fun _ h => h

theorem tryTopLevelMove :
    Works env allowed C I L (MigrationEngine.tryTopLevelMove root runId) := by
  have hk : Composable (Works env allowed C I L) := composable
  refine hk.bind rules.isCancelled fun cancelled => hk.bind rules.memory fun memory => ?_
  refine iteInduction (motive := fun p => Works env allowed C I L p) (fun _ => hk.pure _) fun _ => ?_
  cases memory.remoteSets.legacy.findIdx? MigrationEngine.LegacyInventory.isPresent with
  | none => exact hk.pure _
  | some index =>
    refine hk.bind (rules.ensureParents _) fun _ =>
      hk.bind rules.isCancelled fun cancelled => ?_
    exact iteInduction (motive := fun p => Works env allowed C I L p) (fun _ => hk.pure _)
      fun _ => rules.moveLegacyRoot root _ _ _

/-- A comparison that fails for more than its file ends the work on the root. -/
abbrev Compares (env : Environment ρ)
    (allowed : Traced ρ MigrationMemory → (e : Effect MigrationMemory) → e.Answer → Prop)
    (C I L : Traced ρ MigrationMemory → Prop) (p : Migrator AdoptionDecision) : Prop :=
  Triple (env.TraceStep allowed) env.TraceDrift I p.run
    (fun answer s => I s ∧ ∀ error, answer = .error error →
      (perFileProcessingError error).isSome = false → L s) C

theorem compare (file : LocalFileEntry) (remote : ResourceMetadata) :
    Compares env allowed C I L (remoteMatchesLocal config file remote) := by
  have hpure : ∀ decision, Compares env allowed C I L (pure decision) :=
    fun decision => Triple.ret fun s h => ⟨h,fun error he => by cases he⟩
  unfold remoteMatchesLocal
  refine iteInduction (motive := Compares env allowed C I L) (fun _ => hpure _) fun _ => ?_
  refine iteInduction (motive := Compares env allowed C I L) (fun _ => ?_) fun _ => hpure _
  cases remote.md5 with
  | some remoteMd5 => exact hpure _
  | none =>
    refine TryTriple.bind_run (rules.ask (e := .readFile file.uploadSource) rfl) fun answer => ?_
    cases answer with
    | error error =>
      refine Triple.ret fun s h => ⟨h,fun failure he hfatal => ?_⟩
      cases he
      cases hfatal
    | ok localContent =>
      refine TryTriple.bind_run (rules.askEnds (e := .client (.download remote.path)) rfl)
        fun answer => ?_
      cases answer with
      | error error =>
        refine Triple.ret fun s h => ⟨h.1,fun failure he hfatal => h.2 ?_⟩
        cases he
        simpa [perFileProcessingError,endsWhile,apply_ite] using hfatal
      | ok remoteContent => exact Triple.ret fun s h => ⟨h.1,fun error he => by cases he⟩

theorem moveLegacyFile (file : LocalFileEntry) (index : Nat) (legacyPath : Str)
    (legacyResource : ResourceMetadata) :
    Works env allowed C I L (MigrationEngine.moveLegacyFile root runId file index legacyPath
      legacyResource) := by
  have hk : Composable (Works env allowed C I L) := composable
  refine hk.bind (rules.call rfl rfl) fun operationId => ?_
  refine hk.bind (rules.ask rfl) fun answer => ?_
  cases answer with
  | ok _ =>
    exact hk.bind (rules.call rfl rfl) fun _ => hk.bind (rules.call rfl rfl) fun _ =>
      hk.bind (rules.modifySets _) fun _ => hk.bind (rules.modifySets _) fun _ =>
      hk.bind (rules.modifyReport fun _ => rfl) fun _ =>
      hk.bind (rules.modifySummary fun _ => .refl _) fun _ => hk.pure _
  | error error => exact hk.bind (rules.recordCallFailure root _ _ _ _ _) fun _ => hk.pure _

theorem mergeFile (file : LocalFileEntry) :
    Works env allowed C I L (MigrationEngine.mergeFile config root runId file) := by
  have hk : Composable (Works env allowed C I L) := composable
  refine hk.bind rules.memory fun memory => ?_
  refine iteInduction (motive := fun p => Works env allowed C I L p) (fun _ => hk.pure _) fun _ => ?_
  cases findLegacyFile file.relativePath 0 memory.remoteSets.legacy with
  | none => exact hk.pure _
  | some found =>
    refine TryTriple.bind (TryTriple.lift (rules.compare config file found.2.2)) fun answer => ?_
    cases answer with
    | error error =>
      refine iteInduction (motive := fun p => Ends env allowed C _ p _ _) (fun hfile => ?_) fun hfatal => ?_
      · exact (hk.bind (rules.recordFileProcessingFailure root file _ _ hfile)
          fun _ => hk.pure _).pre fun _ h => h.1
      · exact TryTriple.throw fun _ h => h.2 error rfl (by simpa using hfatal)
    | ok decision =>
      refine TryTriple.pre (P := I) ?_ fun _ h => h.1
      refine iteInduction (motive := fun p => Works env allowed C I L p) (fun _ => hk.pure _) fun _ => ?_
      refine hk.bind (rules.ensureParents _) fun _ =>
        hk.bind rules.isCancelled fun cancelled => ?_
      exact iteInduction (motive := fun p => Works env allowed C I L p) (fun _ => hk.pure _)
        fun _ => rules.moveLegacyFile root file _ _ _

theorem applyMergeMoves : Works env allowed C I L
    (MigrationEngine.applyMergeMoves ext config root runId baseSummary) := by
  have hk : Composable (Works env allowed C I L) := composable
  have hdirectories : ∀ directories, Works env allowed C I L
      (MigrationEngine.mergeDirectories runId baseSummary directories) := by
    intro directories
    induction directories with
    | nil => exact hk.pure _
    | cons directory directories ih =>
      refine hk.bind (rules.ensureDirectory _) fun _ =>
        hk.bind (rules.call rfl rfl) fun _ => hk.bind rules.isCancelled fun cancelled => ?_
      exact iteInduction (motive := fun p => Works env allowed C I L p) (fun _ => hk.pure _)
        fun _ => hk.bind rules.persist fun _ => ih
  have hfiles : ∀ files, Works env allowed C I L
      (MigrationEngine.mergeFiles config root runId files) := by
    intro files
    induction files with
    | nil => exact hk.pure _
    | cons file files ih =>
      refine hk.bind rules.isCancelled fun cancelled => ?_
      refine iteInduction (motive := fun p => Works env allowed C I L p) (fun _ => hk.pure _)
        fun _ => hk.bind (rules.mergeFile config root file) fun stop => ?_
      exact iteInduction (motive := fun p => Works env allowed C I L p) (fun _ => hk.pure _)
        fun _ => ih
  refine hk.bind rules.memory fun start => hk.bind (rules.ensureDirectory _) fun _ =>
    hk.bind rules.isCancelled fun cancelled => ?_
  refine iteInduction (motive := fun p => Works env allowed C I L p) (fun _ => hk.pure _)
    fun _ => hk.bind (rules.call rfl rfl) fun _ => hk.bind rules.livePlan fun plan =>
      hk.bind (hdirectories _) fun stop => ?_
  exact iteInduction (motive := fun p => Works env allowed C I L p) (fun _ => hk.pure _)
    fun _ => hfiles _

end Moves

section Uploads

theorem flushAdoptions : Works env allowed C I L MigrationEngine.flushAdoptions := by
  have hk : Composable (Works env allowed C I L) := composable
  refine hk.bind rules.memory fun memory => ?_
  exact iteInduction (motive := fun p => Works env allowed C I L p) (fun _ => hk.pure _) fun _ =>
    hk.bind (rules.call rfl rfl) fun _ => hk.bind (rules.call rfl rfl) fun _ =>
    hk.bind (rules.call rfl rfl) fun _ => hk.bind (rules.call rfl rfl) fun _ =>
      rules.assignQuietly (fun _ => rfl) fun _ => rfl

theorem adoptFile (file : LocalFileEntry) (remote : ResourceMetadata) (method : Str) :
    Works env allowed C I L
      (MigrationEngine.adoptFile root runId baseSummary file remote method) := by
  have hk : Composable (Works env allowed C I L) := composable
  refine hk.bind (rules.assignQuietly (fun _ => rfl) fun _ => rfl) fun _ =>
    hk.bind (rules.modifyReport fun _ => rfl) fun _ =>
    hk.bind (rules.modifySummary fun _ => .refl _) fun _ => hk.bind rules.memory fun memory => ?_
  exact iteInduction (motive := fun p => Works env allowed C I L p)
    (fun _ => hk.bind rules.flushAdoptions fun _ => rules.persist)
    fun _ => rules.persist

theorem leaveOut (file : LocalFileEntry) (operation : Str) {error : MigrationError}
    (herror : (perFileProcessingError error).isSome = true) :
    Works env allowed C I L
      (MigrationEngine.leaveOut root runId baseSummary file operation error) := by
  have hk : Composable (Works env allowed C I L) := composable
  exact hk.bind rules.flushAdoptions fun _ =>
    hk.bind (rules.recordFileProcessingFailure root file _ _ herror) fun _ =>
      rules.persist

theorem leaveOutMissing (file : LocalFileEntry) :
    Works env allowed C I L
      (MigrationEngine.leaveOutMissing root runId baseSummary file) := by
  have hk : MigrationEngine.Reporting (Works env allowed C I L) := rules.reporting
  refine hk.bind rules.livePlan fun plan => ?_
  refine iteInduction (motive := fun p => Works env allowed C I L p) (fun _ => hk.pure _)
    fun _ => hk.bind (rules.register _ _ _) fun found => ?_
  cases found with
  | some subtree =>
    exact hk.bind rules.flushAdoptions fun _ => hk.bind (hk.recordDeletedSubtree runId subtree)
      fun _ => hk.bind rules.persist fun _ => hk.pure _
  | none =>
    refine hk.bind (rules.ask (e := .isFile file.localPath) rfl) fun isFile => ?_
    exact iteInduction (motive := fun p => Works env allowed C I L p) (fun _ => hk.pure _)
      fun _ => hk.bind (rules.leaveOut root file _ rfl) fun _ => hk.pure _

theorem tryAdopt (previous : Str → Option FileStateRecord) (file : LocalFileEntry)
    (remote : ResourceMetadata) :
    Works env allowed C I L
      (MigrationEngine.tryAdopt config root runId baseSummary previous file remote) := by
  have hk : Composable (Works env allowed C I L) := composable
  refine iteInduction (motive := fun p => Works env allowed C I L p)
    (fun _ => hk.bind (rules.modifySummary fun _ => .refl _) fun _ => hk.pure _) fun _ => ?_
  refine TryTriple.bind (TryTriple.lift (rules.compare config file remote)) fun answer => ?_
  cases answer with
  | error error =>
    refine iteInduction (motive := fun p => Ends env allowed C _ p _ _) (fun hfile => ?_) fun hfatal => ?_
    · exact (hk.bind (rules.leaveOut root file _ hfile) fun _ => hk.pure _).pre
        fun _ h => h.1
    · exact TryTriple.throw fun _ h => h.2 error rfl (by simpa using hfatal)
  | ok decision =>
    refine TryTriple.pre (P := I) ?_ fun _ h => h.1
    exact iteInduction (motive := fun p => Works env allowed C I L p)
      (fun _ => hk.bind (rules.adoptFile root file remote _) fun _ => hk.pure _)
      fun _ => hk.pure _

theorem spawnCandidates (batch : List MigrationUploadCandidate) :
    Works env allowed C I L (MigrationEngine.spawnCandidates runId baseSummary batch) := by
  have hk : MigrationEngine.Reporting (Works env allowed C I L) := rules.reporting
  induction batch with
  | nil => exact hk.pure _
  | cons candidate batch ih =>
    refine hk.bind rules.livePlan fun plan => ?_
    refine iteInduction (motive := fun p => Works env allowed C I L p) (fun _ => ih)
      fun _ => hk.bind (rules.register _ _ _) fun found => ?_
    cases found with
    | some subtree =>
      exact hk.bind (rules.call rfl rfl) fun _ => hk.bind (hk.recordDeletedSubtree runId subtree)
        fun _ => hk.bind rules.persist fun _ => ih
    | none => exact hk.bind (rules.ask rfl) fun _ => ih

theorem fileStatusAfterUpload (file : LocalFileEntry) :
    Works env allowed C I L (MigrationEngine.fileStatusAfterUpload file) := by
  have hk : Composable (Works env allowed C I L) := composable
  refine hk.bind (rules.ask (e := .fileMetadata file.localPath) rfl) fun found => ?_
  cases found with
  | none => exact hk.pure _
  | some found =>
    exact iteInduction (motive := fun p => Works env allowed C I L p) (fun _ => hk.pure _)
      fun _ => hk.pure _

theorem recordMigrationUploaded {file : LocalFileEntry} {isUpdate : Bool}
    (hcount : Works env allowed C I L
      (MigrationEngine.modifySummary (countUpload file isUpdate))) (operationId : Int) :
    Works env allowed C I L (MigrationEngine.recordMigrationUploaded root runId baseSummary
      operationId file isUpdate) := by
  have hk : Composable (Works env allowed C I L) := composable
  exact hk.bind (rules.call rfl rfl) fun _ => hk.bind (rules.fileStatusAfterUpload file) fun _ =>
    hk.bind (rules.call rfl rfl) fun _ => hk.bind (rules.modifySets _) fun _ =>
    hk.bind (rules.call rfl rfl) fun _ => hk.bind (rules.call rfl rfl) fun _ =>
    hk.bind hcount fun _ => rules.persist

theorem recordMigrationUploadFailure (outcome : UploadTaskOutcome)
    (failure : UploadTaskFailure) :
    Works env allowed C I L (MigrationEngine.recordMigrationUploadFailure root runId
      baseSummary outcome failure) := by
  have hk : MigrationEngine.Reporting (Works env allowed C I L) := rules.reporting
  refine hk.bind (rules.register _ _ _) fun found => ?_
  cases found with
  | some subtree =>
    exact hk.bind (rules.call rfl rfl) fun _ => hk.bind (hk.recordDeletedSubtree runId subtree)
      fun _ => hk.bind rules.persist fun _ => hk.pure _
  | none =>
    dsimp only
    cases failure.skipReasonCode with
    | some reasonCode =>
      have hskipped : Works env allowed C I L (MigrationEngine.recordMigrationSkipped root
          runId baseSummary outcome.operationId outcome.file reasonCode failure.errorMessage) :=
        hk.bind (rules.call rfl rfl) fun _ => hk.bind (rules.call rfl rfl) fun _ =>
        hk.bind (rules.call rfl rfl) fun _ => hk.bind (rules.call rfl rfl) fun _ =>
        hk.bind (rules.modifySummary grows_skipped) fun _ =>
          rules.persist
      exact hk.bind hskipped fun _ => hk.pure _
    | none =>
      exact hk.bind (rules.call rfl rfl) fun _ => hk.bind (rules.call rfl rfl) fun _ =>
        hk.bind (rules.call rfl rfl) fun _ =>
        hk.bind (rules.modifySummary (grows_failed _)) fun _ =>
        hk.bind rules.persist fun _ => hk.pure _

theorem joinMigrationUploads
    (hcount : ∀ file isUpdate, Works env allowed C I L
      (MigrationEngine.modifySummary (countUpload file isUpdate))) (fuel : Nat)
    (result : MigrationUploadResult) :
    Works env allowed C I L
      (MigrationEngine.joinMigrationUploads root runId baseSummary fuel result) := by
  have hk : Composable (Works env allowed C I L) := composable
  induction fuel generalizing result with
  | zero => exact hk.pure _
  | succ fuel ih =>
    refine hk.bind (rules.ask (e := .joinNext) rfl) fun joined => ?_
    match joined with
    | none => exact hk.pure _
    | some (.created ..) => exact hk.pure _
    | some (.uploaded outcome) =>
      dsimp only
      cases outcome.result with
      | ok _ =>
        exact hk.bind (rules.recordMigrationUploaded root (hcount _ _) _) fun _ => ih _
      | error failure =>
        exact hk.bind (rules.recordMigrationUploadFailure root outcome failure)
          fun _ => ih _

variable (hjoin : ∀ fuel result, Works env allowed C I L
  (MigrationEngine.joinMigrationUploads root runId baseSummary fuel result))

include hjoin

theorem applyMigrationUploadBatch :
    Works env allowed C I L
      (MigrationEngine.applyMigrationUploadBatch config root runId baseSummary) := by
  have hk : Composable (Works env allowed C I L) := composable
  have hrounds : ∀ fuel result, Works env allowed C I L
      (MigrationEngine.uploadRounds config root runId baseSummary fuel result) := by
    intro fuel
    induction fuel with
    | zero => exact fun _ => hk.pure _
    | succ fuel ih =>
      intro result
      refine hk.bind rules.memory fun memory => ?_
      refine iteInduction (motive := fun p => Works env allowed C I L p) (fun _ => hk.pure _)
        fun _ => hk.bind (rules.assignQuietly (fun _ => rfl) fun _ => rfl) fun _ => ?_
      exact hk.bind (rules.spawnCandidates _) fun _ =>
        hk.bind (hjoin _ _) fun _ => ih _
  exact hk.bind rules.memory fun memory => hrounds _ _

theorem adoptOrUploadEach (previous : Str → Option FileStateRecord)
    (availableRemoteBytes : Option Nat) (files : List LocalFileEntry) (bytesUploaded : Nat) :
    Works env allowed C I L (MigrationEngine.adoptOrUploadEach config root runId baseSummary
      previous availableRemoteBytes files bytesUploaded) := by
  have hk : MigrationEngine.Reporting (Works env allowed C I L) := rules.reporting
  induction files generalizing bytesUploaded with
  | nil =>
    refine hk.bind rules.flushAdoptions fun _ => hk.bind rules.memory fun memory => ?_
    exact iteInduction (motive := fun p => Works env allowed C I L p) (fun _ => hk.pure _)
      fun _ => hk.bind (rules.applyMigrationUploadBatch config root hjoin) fun _ =>
        hk.pure _
  | cons file files ih =>
    refine hk.bind rules.isCancelled fun cancelled => ?_
    refine iteInduction (motive := fun p => Works env allowed C I L p)
      (fun _ => hk.bind rules.flushAdoptions fun _ => hk.pure _) fun _ => ?_
    have hsettle : Works env allowed C I L
        (MigrationEngine.settleFile config root runId baseSummary previous file) := by
      refine hk.bind (rules.leaveOutMissing root file) fun leftOut => ?_
      refine iteInduction (motive := fun p => Works env allowed C I L p) (fun _ => hk.pure _)
        fun _ => hk.bind rules.memory fun memory => ?_
      split
      · exact rules.tryAdopt config root previous file _
      · exact hk.pure _
    refine hk.bind hsettle fun settled => ?_
    refine iteInduction (motive := fun p => Works env allowed C I L p) (fun _ => ih _)
      fun _ => hk.bind rules.flushAdoptions fun _ => hk.bind rules.memory fun memory => ?_
    dsimp only
    split
    · exact hk.bind (hk.failRootWith _ _ _ _ _) fun _ => hk.pure _
    · have hqueue : ∀ isUpdate, Works env allowed C I L
          (MigrationEngine.queueUpload runId file isUpdate) := fun isUpdate =>
        hk.bind (rules.call rfl rfl) fun _ => hk.bind (rules.modifyReport fun _ => rfl) fun _ =>
          rules.assignQuietly (fun _ => rfl) fun _ => rfl
      refine hk.bind (hqueue _) fun _ => ?_
      refine iteInduction (motive := fun p => Works env allowed C I L p) (fun _ => ?_)
        fun _ => ih _
      refine hk.bind (rules.applyMigrationUploadBatch config root hjoin)
        fun result => ?_
      exact iteInduction (motive := fun p => Works env allowed C I L p) (fun _ => hk.pure _)
        fun _ => ih _

end Uploads

section Deletes

theorem applyDeletes :
    Works env allowed C I L (MigrationEngine.applyDeletes root runId baseSummary) := by
  have hk : Composable (Works env allowed C I L) := composable
  have hdeleted : ∀ operationId delete, Works env allowed C I L
      (MigrationEngine.recordMigrationDeleted root runId operationId delete) := by
    intro operationId delete
    refine hk.bind (rules.call rfl rfl) fun _ => ?_
    cases delete.resourceType with
    | file =>
      exact hk.bind (rules.call rfl rfl) fun _ => hk.bind (rules.call rfl rfl) fun _ =>
        rules.call rfl rfl
    | directory =>
      exact hk.bind (rules.call rfl rfl) fun _ => hk.bind (rules.call rfl rfl) fun _ =>
        rules.call rfl rfl
  have hfailed : ∀ operationId delete operation error, Works env allowed C I L
      (MigrationEngine.recordDeleteFailure root runId baseSummary operationId delete operation
        error) := fun _ _ _ _ =>
    hk.bind (rules.recordCallFailure root _ _ _ _ _) fun _ =>
      hk.bind rules.persist fun _ => hk.pure _
  have hremote : ∀ operationId delete, Works env allowed C I L
      (MigrationEngine.deleteCandidate root runId baseSummary operationId delete) := by
    intro operationId delete
    refine hk.bind (rules.ask (e := .client (.deletePermanently delete.remotePath)) rfl) fun answer => ?_
    cases answer with
    | ok _ =>
      exact hk.bind (hdeleted _ _) fun _ => hk.bind (rules.modifyReport fun _ => rfl) fun _ =>
        hk.bind (rules.modifySummary fun _ => by simp [Counts.Grows,Counts.bytes,
          MigrationRootSummary.counts,MigrationRootSummary.toSync,RootSyncSummary.counts]) fun _ =>
        hk.bind rules.persist fun _ => hk.pure _
    | error error =>
      exact iteInduction (motive := fun p => Works env allowed C I L p)
        (fun _ => hk.bind (hdeleted _ _) fun _ =>
          hk.bind rules.persist fun _ => hk.pure _)
        fun _ => hfailed _ _ _ _
  have hcandidate : ∀ fromCache delete, Works env allowed C I L
      (MigrationEngine.applyDeleteCandidate root runId baseSummary fromCache delete) := by
    intro fromCache delete
    refine hk.bind (rules.call rfl rfl) fun operationId => ?_
    refine iteInduction (motive := fun p => Works env allowed C I L p) (fun _ => ?_)
      fun _ => hremote _ _
    refine hk.bind (rules.ask (e := .client (.metadata delete.remotePath)) rfl) fun answer => ?_
    cases answer with
    | ok _ => exact hremote _ _
    | error error =>
      exact iteInduction (motive := fun p => Works env allowed C I L p)
        (fun _ => hk.bind (rules.call rfl rfl) fun _ => hk.bind (rules.call rfl rfl) fun _ =>
          hk.pure _) fun _ => hfailed _ _ _ _
  have heach : ∀ fromCache deletes, Works env allowed C I L
      (MigrationEngine.deleteCandidates root runId baseSummary fromCache deletes) := by
    intro fromCache deletes
    induction deletes with
    | nil => exact hk.pure _
    | cons delete deletes ih =>
      refine hk.bind rules.isCancelled fun cancelled => ?_
      refine iteInduction (motive := fun p => Works env allowed C I L p) (fun _ => hk.pure _)
        fun _ => hk.bind (hcandidate fromCache delete) fun stop => ?_
      exact iteInduction (motive := fun p => Works env allowed C I L p) (fun _ => hk.pure _)
        fun _ => ih
  exact hk.bind rules.memory fun memory => hk.bind rules.livePlan fun plan => heach _ _

end Deletes

theorem loadRemoteSets (canonicalRemotePath : Str) (plan : LiveScanPlan)
    (forceRemoteRescan : Bool) :
    Works env allowed C I L (liftM (MigrationEngine.loadRemoteSets root canonicalRemotePath plan
      forceRemoteRescan).run : Migrator (Except YandexDiskError RemoteSets)) := by
  have hcalls : InventoryCalls fun ⦃α⦄ (p : Listing α) =>
      Ends env allowed C I p (fun _ => I) I := {
    toSequential := sequential_try fun _ h => h
    now := rules.ask rfl
    status := fun _ => rules.ask rfl
    cached := fun _ => rules.ask rfl
    metadata := fun _ => rules.ask rfl
    list := fun _ _ => rules.ask rfl }
  refine (TryTriple.catch (loadRemoteSets_of hcalls root canonicalRemotePath plan
    forceRemoteRescan)).post fun answer s h => ?_
  cases answer with
  | ok _ => exact h
  | error _ => exact h

section Cleanup

variable {scanReport : ScanReport} (after : EndRules runId baseSummary env allowed C J L)
  (hcleanup : Ends env allowed C I (MigrationEngine.cleanupStagingFiles scanReport.files)
    (fun _ => J) L)
  (hjoin : ∀ fuel result, Works env allowed C I L
    (MigrationEngine.joinMigrationUploads root runId baseSummary fuel result))

include after hcleanup hjoin

/-- From the inventory on, with `I` up to the cleanup and `J` after it. -/
theorem migrateRoot (sets : RemoteSets) (availableRemoteBytes : Option Nat) :
    Ends env allowed C I (MigrationEngine.migrateRoot ext config root runId baseSummary scanReport
      sets availableRemoteBytes) (fun _ => J) L := by
  have hk : Reporting (Works env allowed C I L) := rules.reporting
  have ha : Reporting (Works env allowed C J L) := after.reporting
  have hgiveUp : Ends env allowed C I (giveUpRoot root scanReport) (fun _ => J) L :=
    TryTriple.bind hcleanup fun _ => ha.bind (ha.finishRootCancelledOrFailed root) fun _ => ha.pure _
  have hrecord : Works env allowed C I L (recordRemoteResources config root sets) :=
    hk.bind (rules.call rfl rfl) fun _ => hk.bind (rules.ask rfl) fun _ => rules.call rfl rfl
  have hadopt : Works env allowed C I L (applyAdoptOrUpload config root runId baseSummary
      availableRemoteBytes) :=
    hk.bind (rules.call rfl rfl) fun _ => hk.bind rules.livePlan fun _ =>
      rules.adoptOrUploadEach config root hjoin _ _ _ _
  refine TryTriple.bind (rules.modifySets _) fun _ => TryTriple.bind hrecord fun _ =>
    TryTriple.bind (rules.tryTopLevelMove root) fun stop =>
      TryTriple.bind rules.isCancelled fun cancelled => ?_
  refine iteInduction (motive := fun p => Ends env allowed C I p _ L) (fun _ => hgiveUp)
    fun _ => TryTriple.bind (rules.applyMergeMoves ext config root) fun stop =>
      TryTriple.bind rules.isCancelled fun cancelled => ?_
  refine iteInduction (motive := fun p => Ends env allowed C I p _ L) (fun _ => hgiveUp)
    fun _ => TryTriple.bind hadopt fun uploaded => TryTriple.bind hcleanup fun _ =>
      ha.bind after.isCancelled fun cancelled => ?_
  refine iteInduction (motive := fun p => Works env allowed C J L p)
    (fun _ => ha.bind (ha.finishRootCancelledOrFailed root) fun _ => ha.pure _) fun _ => ?_
  exact ha.bind (after.applyDeletes root) fun _ =>
    ha.bind (ha.finishRootCancelledOrFailed root) fun _ => ha.bind after.persist fun _ => ha.pure _

/-- Every way on from a planned scan leads through the cleanup. -/
theorem executeScanned {P : Traced ρ MigrationMemory → Prop} (canonicalRemotePath : Str)
    (availableRemoteBytes : Option Nat) (forceRemoteRescan : Bool)
    (hplan : Ends env allowed C P (MigrationEngine.planScan root runId baseSummary scanReport)
      (fun _ => I) L) :
    Ends env allowed C P (MigrationEngine.executeScanned ext config root runId baseSummary
      canonicalRemotePath scanReport availableRemoteBytes forceRemoteRescan) (fun _ => J) L := by
  have hk : Reporting (Works env allowed C I L) := rules.reporting
  have hstop : ∀ {α : Type} (result : α), Ends env allowed C I (do
      MigrationEngine.cleanupStagingFiles scanReport.files
      return result) (fun _ => J) L := fun _ =>
    TryTriple.bind hcleanup fun _ => TryTriple.pure fun _ h => h
  refine TryTriple.bind hplan fun plan => ?_
  cases localRemoteCollision plan.directories plan.files with
  | some message => exact TryTriple.bind (hk.failRootWith _ _ _ _ _) fun _ => hstop _
  | none =>
    refine TryTriple.bind (rules.loadRemoteSets root canonicalRemotePath plan forceRemoteRescan)
      fun answer => ?_
    cases answer with
    | ok sets => exact rules.migrateRoot ext config root after hcleanup hjoin sets _
    | error error =>
      refine TryTriple.bind (rules.call rfl rfl) fun _ => ?_
      exact iteInduction (motive := fun p => Ends env allowed C I p _ L)
        (fun _ => TryTriple.bind (hk.failRootWith _ _ _ _ _) fun _ => hstop _)
        fun _ => TryTriple.bind (hk.failRootWith _ _ _ _ _) fun _ => hstop _

end Cleanup

end EndRules

end Rules

end MigrationEngine

end YaDiskSync

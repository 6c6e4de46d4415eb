import YaDiskSync.MigrationFrame
import YaDiskSync.Journal

/-! The journal of a migration. The uploads of a batch open their entries before their tasks are
started; between the two they wait. -/
namespace YaDiskSync

open Prog

namespace MigrationJournal

open MigrationEngine

variable {ρ : Type} {env : Environment ρ} {known : List Int}

/-- The open entries of the batch. -/
def waiting (memory : MigrationMemory) : List Int :=
  memory.uploadBatch.map MigrationUploadCandidate.operationId

abbrev Step (env : Environment ρ) (s : Traced ρ MigrationMemory) (e : Effect MigrationMemory)
    (answer : e.Answer) (s' : Traced ρ MigrationMemory) : Prop :=
  env.TraceStep (EndsClosed waiting) s e answer s'

abbrev Runs (env : Environment ρ) (known : List Int) (P : Traced ρ MigrationMemory → Prop)
    {α : Type} (p : Migrator α) (Q : α → Traced ρ MigrationMemory → Prop) : Prop :=
  MigrationEngine.Leads (Step env) env.TraceDrift (Closed known) P p Q

/-- A migration at work: `taken` has left the batch for tasks that are not started yet, and
`batch` is what the batch holds, where that matters. -/
structure AtWork (known : List Int) (batch : Option (List MigrationUploadCandidate))
    (taken : List Int) (n : Nat) (hand : Option (Int × Option Ending)) (moment : Moment)
    (s : Traced ρ MigrationMemory) : Prop where
  working : Working (fun memory => taken ++ waiting memory) known (fun task => ¬ task.IsCreate) n
    hand moment s
  batch : ∀ candidates, batch = some candidates → s.world.memory.uploadBatch = candidates

/-- No upload waits in the batch. -/
abbrev Idle (known : List Int) : Traced ρ MigrationMemory → Prop :=
  AtWork known (some []) [] 0 none .idle

/-- Uploads may wait in the batch. -/
abbrev Queued (known : List Int) : Traced ρ MigrationMemory → Prop :=
  AtWork known none [] 0 none .idle

variable {batch : Option (List MigrationUploadCandidate)} {taken : List Int} {n : Nat}
  {hand : Option (Int × Option Ending)} {moment : Moment} {s s' : Traced ρ MigrationMemory}

namespace AtWork

theorem stable : Stable env.TraceDrift (AtWork (ρ := ρ) known batch taken n hand moment) := by
  intro s s' h hdrift
  refine ⟨Working.stable s s' h.working hdrift,fun candidates hb => ?_⟩
  rw [hdrift.memory_eq]
  exact h.batch candidates hb

theorem of_working (h : AtWork known batch taken n hand moment s) {n' : Nat}
    {hand' : Option (Int × Option Ending)} {moment' : Moment}
    (hw : Working (fun memory => taken ++ waiting memory) known (fun task => ¬ task.IsCreate) n'
      hand' moment' s')
    (hbatch : s'.world.memory.uploadBatch = s.world.memory.uploadBatch) :
    AtWork known batch taken n' hand' moment' s' :=
  ⟨hw,fun candidates hb => hbatch.trans (h.batch candidates hb)⟩

theorem queued (h : Idle known s) : Queued known s := ⟨h.working,fun _ hb => nomatch hb⟩

/-- Where nothing is open nothing waits. -/
theorem idle (h : AtWork known batch taken 0 none .idle s) (hnone : NoneOpen s) : Idle known s := by
  have hpending := h.working.books.pending_eq_nil hnone
  simp only [Option.toList_none,List.map_nil,List.nil_append,List.append_eq_nil_iff] at hpending
  have hempty : s.world.memory.uploadBatch = [] := List.map_eq_nil_iff.mp hpending.2.2
  refine ⟨?_,?_⟩
  · rw [← hpending.2.1]
    exact h.working
  · rintro _ ⟨⟩
    exact hempty

theorem closed (h : Idle known s) : Closed known s :=
  h.working.closed (by simp [waiting,h.batch _ rfl])

section Steps

variable {allowed : Traced ρ MigrationMemory → (e : Effect MigrationMemory) → e.Answer → Prop}

theorem memory_eq {e : Effect MigrationMemory} {answer : e.Answer}
    (hstep : env.TraceStep allowed s e answer s') (he : ∀ f, e ≠ .updateMemory f) :
    s'.world.memory.uploadBatch = s.world.memory.uploadBatch := by
  rw [hstep.2.1.memory_eq he]

theorem batch_kept {e : Effect MigrationMemory} {answer : e.Answer}
    (hbatch : ∀ f, e = .updateMemory f → KeepsBatch f)
    (hstep : env.TraceStep allowed s e answer s') :
    s'.world.memory.uploadBatch = s.world.memory.uploadBatch := by
  by_cases hf : ∃ f, e = .updateMemory f
  · obtain ⟨f,rfl⟩ := hf
    rw [hstep.2.1.memory_update]
    exact hbatch f rfl _
  · exact memory_eq hstep fun f he => hf ⟨f,he⟩

theorem steady (h : AtWork known batch taken n hand .idle s) {e : Effect MigrationMemory}
    {answer : e.Answer} (he : Working.isSteady e = true)
    (hbatch : ∀ f, e = .updateMemory f → KeepsBatch f)
    (hstep : env.TraceStep allowed s e answer s') : AtWork known batch taken n hand .idle s' := by
  refine h.of_working (h.working.steady he (fun f hf memory => ?_) hstep)
    (batch_kept hbatch hstep)
  rw [waiting,hbatch f hf,← waiting]

/-- What the run has been told stays. -/
theorem rests (h : AtWork known batch taken n hand moment s) {e : Effect MigrationMemory}
    {answer : e.Answer} (he : Working.isRest e = true)
    (hbatch : ∀ f, e = .updateMemory f → KeepsBatch f)
    (hstep : env.TraceStep allowed s e answer s') :
    AtWork known batch taken n hand moment.rest s' := by
  refine h.of_working (h.working.rests he (fun f hf memory => ?_) hstep)
    (batch_kept hbatch hstep)
  rw [waiting,hbatch f hf,← waiting]

theorem opens (h : AtWork known batch taken n none moment s) {record : OperationRecord} {id : Int}
    (hstep : env.TraceStep allowed s (.state (.appendOperationStarted record)) (.ok id) s') :
    AtWork known batch taken n (some (id,moment.blame)) (.calling id) s' :=
  h.of_working (h.working.opens hstep) (memory_eq hstep fun _ he => nomatch he)

end Steps

end AtWork

theorem isSteady_of_isRoutine {e : Effect MigrationMemory}
    (he : MigrationEngine.isRoutine e = true) : Working.isSteady e = true := by
  cases e with
  | state call => cases call <;> first | rfl | cases he
  | spawn _ | joinNext | dropTasks => cases he
  | _ => rfl

theorem routine_atWork : MigrationEngine.Routine fun ⦃α⦄ (p : Migrator α) =>
    Upholds (Step env) env.TraceDrift (AtWork known batch taken n hand .idle) (Closed known) p :=
  MigrationEngine.routine_upholds AtWork.stable
    (fun e he _ _ _ h hstep => h.steady (isSteady_of_isRoutine he) (fun f hf => by
      rw [hf] at he
      cases he) hstep)
    (fun f hf _ _ _ h hstep => h.rests rfl (fun _ he => by cases he; exact hf) hstep)
    fun _ _ _ _ _ h hstep => h.working.error_closed hstep

theorem call_leads {call : StateCall}
    (he : Working.isSteady (μ := MigrationMemory) (.state call) = true) :
    Runs env known (AtWork known batch taken n hand .idle) (MigrationEngine.state call)
      fun _ => AtWork known batch taken n hand .idle :=
  MigrationEngine.state_leads AtWork.stable
    (fun _ _ _ h hstep => h.steady he (fun _ hf => nomatch hf) hstep)
    fun _ _ _ h hstep => h.working.error_closed hstep

/-- A call of the database, whatever the run has just been told. -/
theorem store_leads {call : StateCall}
    (he : Working.isRest (μ := MigrationMemory) (.state call) = true) :
    Runs env known (AtWork known batch taken n hand moment) (MigrationEngine.state call)
      fun _ => AtWork known batch taken n hand moment.rest :=
  MigrationEngine.state_leads AtWork.stable
    (fun _ _ _ h hstep => h.rests he (fun _ hf => nomatch hf) hstep)
    fun _ _ _ h hstep => h.working.error_closed hstep

theorem opens_leads (record : OperationRecord) :
    Runs env known (AtWork known batch taken n none moment)
      (MigrationEngine.state (.appendOperationStarted record))
      fun id => AtWork known batch taken n (some (id,moment.blame)) (.calling id) :=
  MigrationEngine.state_leads AtWork.stable (fun _ _ _ h hstep => h.opens hstep)
    fun _ _ _ h hstep => h.working.error_closed hstep

theorem closes_leads {id : Int} {ending : Ending} (errorKind errorMessage : Option Str) :
    Runs env known (AtWork known batch taken n (some (id,some ending)) moment)
      (MigrationEngine.state (.finishOperation id ending.status errorKind errorMessage))
      fun _ => AtWork known batch taken n none .idle :=
  MigrationEngine.state_leads AtWork.stable
    (fun _ _ _ h hstep => h.of_working (h.working.closes hstep)
      (AtWork.memory_eq hstep fun _ he => nomatch he))
    fun _ _ _ h hstep => h.working.error_closed hstep

theorem givesUp_leads {id : Int} {verdict : Option Ending} (errorKind errorMessage : Option Str) :
    Runs env known (AtWork known batch taken n (some (id,verdict)) .missing)
      (MigrationEngine.state (.finishOperation id .cancelled errorKind errorMessage))
      fun _ => AtWork known batch taken n none .idle :=
  MigrationEngine.state_leads AtWork.stable
    (fun _ _ _ h hstep => h.of_working (h.working.givesUp hstep)
      (AtWork.memory_eq hstep fun _ he => nomatch he))
    fun _ _ _ h hstep => h.working.error_closed hstep

/-- A file is looked up; what is told is that nothing is there. -/
theorem register_leads (localPath : LocalPath) (relativePath remotePath : Str) :
    Runs env known (AtWork known batch taken n hand .idle)
      (MigrationEngine.registerMissingLocalPath localPath relativePath remotePath)
      fun found => AtWork known batch taken n hand (Working.looked found.isSome) := by
  refine TryTriple.bind routine_atWork.livePlan fun plan => ?_
  refine TryTriple.bind (registerMissingLocalPath_finds
    (F := fun gone => AtWork known batch taken n hand (Working.looked gone))
    (fun _ h => ⟨h.working.idle (by simp [Working.looked]),h.batch⟩)
    (fun gone path => ?_) (fun path => routine_atWork.routine (.isDir path) rfl) plan localPath
    relativePath remotePath) fun result => ?_
  · exact TryTriple.perform AtWork.stable (fun _ _ => trivial) fun _ _ _ h hstep =>
      h.of_working (h.working.looks hstep) (AtWork.memory_eq hstep fun _ he => by cases he)
  · refine TryTriple.bind (Q := fun _ => AtWork known batch taken n hand
      (Working.looked result.2.isSome)) ?_ fun _ => TryTriple.pure fun _ h => h
    refine TryTriple.perform AtWork.stable (fun _ _ => trivial) fun s _ s' h hstep => ?_
    have hrest : (Working.looked result.2.isSome).rest = Working.looked result.2.isSome := by
      cases result.2 <;> rfl
    exact hrest ▸ h.rests rfl (fun _ he => by cases he; exact fun _ => rfl) hstep

/-- The call an operation was opened for. -/
theorem ends_leads {id : Int} {call : ClientCall} (hcall : ∀ path, call ≠ .metadata path) :
    Runs env known (AtWork known batch taken n (some (id,none)) (.calling id))
      (MigrationEngine.client call)
      fun answer => AtWork known batch taken n (some (id,some (.ofCall call answer))) .idle :=
  TryTriple.perform AtWork.stable (fun _ _ => trivial) fun _ _ _ h hstep =>
    h.of_working (h.working.ends (fun path he => absurd he (hcall path)) hstep)
      (AtWork.memory_eq hstep fun _ he => nomatch he)

theorem running_idle : MigrationEngine.Running fun ⦃α⦄ (p : Migrator α) =>
    Upholds (Step env) env.TraceDrift (Idle known) (Closed known) p := by
  refine MigrationEngine.running_upholds AtWork.stable
    (fun e he _ _ _ h hstep => h.steady (isSteady_of_isRoutine he) (fun f hf => by
      rw [hf] at he
      cases he) hstep)
    (fun f hf _ _ _ h hstep => h.rests rfl (fun _ he => by cases he; exact hf) hstep)
    (fun f hf s _ s' h hstep => ?_)
    fun _ h => h.closed
  have hbatch := h.batch _ rfl
  refine h.of_working (h.working.update ?_ hstep) ?_
  · simp [waiting,hf,hbatch]
  · rw [hstep.2.1.memory_update,hf,hbatch]

section Moves

variable {config : AppConfig} {root : SyncRootConfig} {runId : Int}
  {baseSummary : SyncRunSummary}

theorem recordCallFailure_leads {operationId : Int}
    {legacyRemotePath canonicalRemotePath operation : Str} {error : YandexDiskError} :
    Runs env known (AtWork known batch taken n (some (operationId,some .failed)) .idle)
      (recordCallFailure root operationId legacyRemotePath canonicalRemotePath operation error)
      fun _ => AtWork known batch taken n none .idle := by
  refine TryTriple.bind (closes_leads _ _) fun _ => ?_
  refine TryTriple.bind (TryTriple.bind (call_leads rfl) fun _ => call_leads rfl) fun _ => ?_
  exact routine_atWork.modifySummary _

theorem createDirectoryOperation_idle (remotePath : Str) :
    Upholds (Step env) env.TraceDrift (Idle known) (Closed known)
      (createDirectoryOperation runId remotePath) := by
  refine TryTriple.bind (opens_leads _) fun operationId => ?_
  refine TryTriple.bind (ends_leads (by simp)) fun answer => ?_
  cases answer with
  | ok _ =>
    exact TryTriple.bind (closes_leads none none) fun _ => running_idle.modifyReport _
  | error error =>
    exact TryTriple.bind (closes_leads _ _) fun _ =>
      TryTriple.bind (running_idle.modifySummary _) fun _ => running_idle.throw _

theorem ensureParentDirectories_idle (remotePath : Str) :
    Upholds (Step env) env.TraceDrift (Idle known) (Closed known)
      (ensureParentDirectories runId remotePath) := by
  unfold ensureParentDirectories
  induction parentRemotePaths remotePath with
  | nil => exact running_idle.pure ()
  | cons parent parents ih =>
    refine TryTriple.bind running_idle.isCancelled fun cancelled => ?_
    refine iteInduction (motive := fun p => Upholds _ _ _ _ p) (fun _ => running_idle.pure ())
      fun _ => ?_
    refine TryTriple.bind running_idle.memory fun memory => ?_
    refine iteInduction (motive := fun p => Upholds _ _ _ _ p) (fun _ => ih) fun _ => ?_
    exact TryTriple.bind (createDirectoryOperation_idle parent) fun _ =>
      TryTriple.bind (running_idle.modifySets _) fun _ => ih

theorem ensureDirectory_idle (remotePath : Str) :
    Upholds (Step env) env.TraceDrift (Idle known) (Closed known)
      (ensureDirectory runId remotePath) := by
  refine TryTriple.bind running_idle.memory fun memory => ?_
  refine iteInduction (motive := fun p => Upholds _ _ _ _ p) (fun _ => running_idle.pure ())
    fun _ => ?_
  refine TryTriple.bind (ensureParentDirectories_idle remotePath) fun _ => ?_
  refine TryTriple.bind running_idle.isCancelled fun cancelled => ?_
  refine iteInduction (motive := fun p => Upholds _ _ _ _ p) (fun _ => running_idle.pure ())
    fun _ => ?_
  exact TryTriple.bind (createDirectoryOperation_idle remotePath) fun _ =>
    running_idle.modifySets _

theorem inventoryCalls_idle :
    MigrationEngine.InventoryCalls fun ⦃α⦄ (p : Listing α) =>
      Upholds (Step env) env.TraceDrift (Idle known) (Idle known) p := by
  have hask : ∀ e : Effect MigrationMemory, Working.isSteady e = true →
      (∀ f, e ≠ .updateMemory f) →
        Upholds (Step env) env.TraceDrift (Idle known) (Idle known) (ask e) :=
    fun e he hf => Upholds.perform AtWork.stable fun s answer s' h hstep =>
      h.steady he (fun f he => absurd he (hf f)) hstep
  exact {
    toSequential := sequential_upholds fun _ h => h
    now := hask _ rfl fun _ he => nomatch he
    status := fun _ => hask _ rfl fun _ he => nomatch he
    cached := fun _ => hask _ rfl fun _ he => nomatch he
    metadata := fun _ => hask _ rfl fun _ he => nomatch he
    list := fun _ _ => hask _ rfl fun _ he => nomatch he }

theorem tryTopLevelMove_idle :
    Upholds (Step env) env.TraceDrift (Idle known) (Closed known)
      (tryTopLevelMove root runId) := by
  have hmove : ∀ index source target, Upholds (Step env) env.TraceDrift (Idle known)
      (Closed known) (moveLegacyRoot root runId index source target) := by
    intro index source target
    refine TryTriple.bind (opens_leads _) fun operationId => ?_
    refine TryTriple.bind (ends_leads (by simp)) fun answer => ?_
    cases answer with
    | ok _ =>
      refine TryTriple.bind (closes_leads none none) fun _ => ?_
      refine TryTriple.bind (call_leads rfl) fun _ => ?_
      refine TryTriple.bind (running_idle.modifyReport _) fun _ => ?_
      refine TryTriple.bind (running_idle.modifySummary _) fun _ => ?_
      refine TryTriple.bind ((migrationInventory_of inventoryCalls_idle target []).catch
        fun _ h => h) fun answer => ?_
      cases answer with
      | error error => exact running_idle.throw _
      | ok canonical =>
        exact TryTriple.bind (running_idle.modifySets _) fun _ =>
          TryTriple.bind (running_idle.modifySets _) fun _ => running_idle.pure _
    | error error =>
      exact TryTriple.bind recordCallFailure_leads fun _ => running_idle.pure _
  refine TryTriple.bind running_idle.isCancelled fun cancelled => ?_
  refine TryTriple.bind running_idle.memory fun memory => ?_
  refine iteInduction (motive := fun p => Upholds _ _ _ _ p) (fun _ => running_idle.pure _)
    fun _ => ?_
  cases memory.remoteSets.legacy.findIdx? LegacyInventory.isPresent with
  | none => exact running_idle.pure _
  | some index =>
    refine TryTriple.bind (ensureParentDirectories_idle _) fun _ => ?_
    refine TryTriple.bind running_idle.isCancelled fun cancelled => ?_
    exact iteInduction (motive := fun p => Upholds _ _ _ _ p) (fun _ => running_idle.pure _)
      fun _ => hmove index _ _

/-- The ending of an operation opened for a file that could not be compared. -/
def blameOf (error : MigrationError) : Ending :=
  if (skippableLocalProcessingError error).isSome then .givenUp else .failed

/-- A comparison that fails is to blame for what is not done; one that ends the run leaves nothing
open. -/
def Compared (known : List Int) (batch : Option (List MigrationUploadCandidate)) :
    Except MigrationError AdoptionDecision → Traced ρ MigrationMemory → Prop
  | .ok _ => AtWork known batch [] 0 none .idle
  | .error error => fun s => AtWork known batch [] 0 none (.blamed (blameOf error)) s ∧
    (perFileProcessingError error = none → Idle known s)

theorem blameOf_io (path : LocalPath) (error : IoError) :
    blameOf (.io path error) = .ofReading error := by
  cases hskip : isSkippableLocalIoError error <;>
    simp [blameOf,skippableLocalProcessingError,Ending.ofReading,hskip]

theorem blameOf_yandexDisk (error : YandexDiskError) :
    blameOf (.yandexDisk error) = .ofDownload error := by
  cases hskip : error.isLocalUploadSourceUnavailable <;>
    simp [blameOf,skippableLocalProcessingError,Ending.ofDownload,hskip]

theorem readLocal_leads (path : LocalPath) :
    TryTriple (Step env) env.TraceDrift (AtWork known batch [] 0 none .idle)
      (MigrationEngine.perform (.readFile path))
      (After (fun _ => AtWork known batch [] 0 none .idle)
        fun error => AtWork known batch [] 0 none (.blamed (.ofReading error)))
      (fun _ => False) fun _ => True := by
  refine TryTriple.perform AtWork.stable (fun _ _ => trivial) fun s answer s' h hstep => ?_
  have hwork := h.steady rfl (fun _ hf => by cases hf) hstep
  cases answer with
  | ok content => exact hwork
  | error error =>
    refine ⟨hwork.working.told ?_,hwork.batch⟩
    rw [Books.endings_step hstep]
    rfl

/-- The download of a file is cut short only while nothing is open. -/
theorem download_leads (remotePath : Str) :
    TryTriple (Step env) env.TraceDrift (AtWork known batch [] 0 none .idle)
      (MigrationEngine.client (.download remotePath))
      (After (fun _ => AtWork known batch [] 0 none .idle) fun error s =>
        AtWork known batch [] 0 none (.blamed (.ofDownload error)) s ∧
          (isStopError error.kind = true → Idle known s)) (fun _ => False) fun _ => True := by
  refine TryTriple.perform AtWork.stable (fun _ _ => trivial) fun s answer s' h hstep => ?_
  have hwork := h.steady rfl (fun _ hf => by cases hf) hstep
  cases answer with
  | ok content => exact hwork
  | error error =>
    refine ⟨⟨hwork.working.told ?_,hwork.batch⟩,fun hstop => ?_⟩
    · rw [Books.endings_step hstep]
      have hcalls := h.working.moment
      cases hmoment : (endings s.trace).moment with
      | calling id => exact absurd hmoment (hcalls id)
      | _ => simp [Endings.asked,hmoment,Moment.Meets]
    · exact (h.idle (hstep.1 hstop)).steady rfl (fun _ hf => by cases hf) hstep

theorem remoteMatchesLocal_leads (file : LocalFileEntry) (remote : ResourceMetadata) :
    Triple (Step env) env.TraceDrift (AtWork known batch [] 0 none .idle)
      (remoteMatchesLocal config file remote).run (Compared known batch) fun _ => True := by
  have hret : ∀ decision : AdoptionDecision, Triple (Step env) env.TraceDrift
      (AtWork known batch [] 0 none .idle) (Prog.ret (Except.ok decision)) (Compared known batch)
      fun _ => True :=
    fun decision => Triple.ret fun _ h => h
  refine iteInduction (motive := fun p : Migrator AdoptionDecision => Triple _ _ _ p.run _ _)
    (fun _ => hret _) fun _ => ?_
  refine iteInduction (motive := fun p : Migrator AdoptionDecision => Triple _ _ _ p.run _ _)
    (fun _ => ?_) fun _ => hret _
  cases remote.md5 with
  | some remoteMd5 => exact hret _
  | none =>
    refine TryTriple.bind_run (readLocal_leads file.uploadSource) fun answer => ?_
    cases answer with
    | error error =>
      refine Triple.ret fun _ h => ⟨?_,fun hnone => by simp [perFileProcessingError] at hnone⟩
      rw [blameOf_io]
      exact h
    | ok localContent =>
      refine TryTriple.bind_run (download_leads remote.path) fun answer => ?_
      cases answer with
      | error error =>
        refine Triple.ret fun s h => ⟨?_,fun hnone => h.2 ?_⟩
        · rw [blameOf_yandexDisk]
          exact h.1
        · by_contra hstop
          simp [perFileProcessingError,hstop] at hnone
      | ok remoteContent => exact hret _

theorem recordFileProcessingFailure_leads (file : LocalFileEntry)
    (operation operationRemotePath : Str) {error : MigrationError}
    (herror : (perFileProcessingError error).isSome = true) :
    Runs env known (AtWork known batch taken n none (.blamed (blameOf error)))
      (recordFileProcessingFailure root runId file operation operationRemotePath error)
      fun _ => AtWork known batch taken n none .idle := by
  unfold recordFileProcessingFailure
  obtain ⟨⟨errorKind,errorMessage⟩,hsome⟩ := Option.isSome_iff_exists.mp herror
  rw [hsome]
  refine TryTriple.bind (opens_leads _) fun operationId => ?_
  cases hskip : skippableLocalProcessingError error with
  | some reason =>
    rw [show blameOf error = .givenUp by simp [blameOf,hskip]]
    refine TryTriple.bind (closes_leads _ _) fun _ => ?_
    refine TryTriple.bind (call_leads rfl) fun _ => TryTriple.bind (call_leads rfl) fun _ => ?_
    exact TryTriple.bind (call_leads rfl) fun _ => routine_atWork.modifySummary _
  | none =>
    rw [show blameOf error = .failed by simp [blameOf,hskip]]
    refine TryTriple.bind (closes_leads _ _) fun _ => ?_
    refine TryTriple.bind (call_leads rfl) fun _ => TryTriple.bind (call_leads rfl) fun _ => ?_
    exact TryTriple.bind (call_leads rfl) fun _ => routine_atWork.modifySummary _

theorem moveLegacyFile_idle (file : LocalFileEntry) (index : Nat) (legacyPath : Str)
    (legacyResource : ResourceMetadata) :
    Upholds (Step env) env.TraceDrift (Idle known) (Closed known)
      (moveLegacyFile root runId file index legacyPath legacyResource) := by
  refine TryTriple.bind (opens_leads _) fun operationId => ?_
  refine TryTriple.bind (ends_leads (by simp)) fun answer => ?_
  cases answer with
  | ok _ =>
    refine TryTriple.bind (closes_leads none none) fun _ => ?_
    refine TryTriple.bind (call_leads rfl) fun _ => ?_
    refine TryTriple.bind (running_idle.modifySets _) fun _ => ?_
    refine TryTriple.bind (running_idle.modifySets _) fun _ => ?_
    exact TryTriple.bind (running_idle.modifyReport _) fun _ =>
      TryTriple.bind (running_idle.modifySummary _) fun _ => running_idle.pure _
  | error error => exact TryTriple.bind recordCallFailure_leads fun _ => running_idle.pure _

theorem mergeFile_idle (file : LocalFileEntry) :
    Upholds (Step env) env.TraceDrift (Idle known) (Closed known)
      (mergeFile config root runId file) := by
  refine TryTriple.bind running_idle.memory fun memory => ?_
  refine iteInduction (motive := fun p => Upholds _ _ _ _ p) (fun _ => running_idle.pure _)
    fun _ => ?_
  match findLegacyFile file.relativePath 0 memory.remoteSets.legacy with
  | none => exact running_idle.pure _
  | some (index,legacyPath,legacyResource) =>
    refine TryTriple.bind (TryTriple.lift (remoteMatchesLocal_leads file legacyResource))
      fun answer => ?_
    cases answer with
    | error error =>
      refine iteInduction (motive := fun p => Runs _ _ _ p _) (fun hfile => ?_) fun hstop => ?_
      · exact TryTriple.bind ((recordFileProcessingFailure_leads file _ _ hfile).pre
          fun _ h => h.1) fun _ => running_idle.pure _
      · exact TryTriple.throw fun s h => (h.2 (by simpa using hstop)).closed
    | ok decision =>
      refine iteInduction (motive := fun p => Upholds _ _ _ _ p) (fun _ => running_idle.pure _)
        fun _ => ?_
      refine TryTriple.bind (ensureParentDirectories_idle _) fun _ => ?_
      refine TryTriple.bind running_idle.isCancelled fun cancelled => ?_
      exact iteInduction (motive := fun p => Upholds _ _ _ _ p) (fun _ => running_idle.pure _)
        fun _ => moveLegacyFile_idle file index legacyPath legacyResource

theorem applyMergeMoves_idle (ext : Externals) :
    Upholds (Step env) env.TraceDrift (Idle known) (Closed known)
      (applyMergeMoves ext config root runId baseSummary) := by
  have hfiles : ∀ files, Upholds (Step env) env.TraceDrift (Idle known) (Closed known)
      (mergeFiles config root runId files) := by
    intro files
    induction files with
    | nil => exact running_idle.pure _
    | cons file files ih =>
      refine TryTriple.bind running_idle.isCancelled fun cancelled => ?_
      refine iteInduction (motive := fun p => Upholds _ _ _ _ p) (fun _ => running_idle.pure _)
        fun _ => ?_
      refine TryTriple.bind (mergeFile_idle file) fun stop => ?_
      exact iteInduction (motive := fun p => Upholds _ _ _ _ p) (fun _ => running_idle.pure _)
        fun _ => ih
  have hdirectories : ∀ directories, Upholds (Step env) env.TraceDrift (Idle known)
      (Closed known) (mergeDirectories runId baseSummary directories) := by
    intro directories
    induction directories with
    | nil => exact running_idle.pure _
    | cons directory directories ih =>
      refine TryTriple.bind (ensureDirectory_idle _) fun _ => ?_
      refine TryTriple.bind (call_leads rfl) fun _ => ?_
      refine TryTriple.bind running_idle.isCancelled fun cancelled => ?_
      refine iteInduction (motive := fun p => Upholds _ _ _ _ p) (fun _ => running_idle.pure _)
        fun _ => ?_
      exact TryTriple.bind (running_idle.persistRootProgress _ _) fun _ => ih
  refine TryTriple.bind running_idle.memory fun start => ?_
  refine TryTriple.bind (ensureDirectory_idle _) fun _ => ?_
  refine TryTriple.bind running_idle.isCancelled fun cancelled => ?_
  refine iteInduction (motive := fun p => Upholds _ _ _ _ p) (fun _ => running_idle.pure _)
    fun _ => ?_
  refine TryTriple.bind (call_leads rfl) fun _ => TryTriple.bind running_idle.livePlan fun plan => ?_
  refine TryTriple.bind (hdirectories _) fun stop => ?_
  exact iteInduction (motive := fun p => Upholds _ _ _ _ p) (fun _ => running_idle.pure _)
    fun _ => hfiles _

end Moves

section Adoption

variable {config : AppConfig} {root : SyncRootConfig} {runId : Int}
  {baseSummary : SyncRunSummary}

/-- The adoptions are stored, whatever the run has just been told. -/
theorem flushAdoptions_leads (hrest : moment.rest = moment) :
    Runs env known (AtWork known batch taken n none moment) flushAdoptions
      fun _ => AtWork known batch taken n none moment := by
  have hstore : ∀ call : StateCall, Working.isRest (μ := MigrationMemory) (.state call) = true →
      Runs env known (AtWork known batch taken n none moment) (MigrationEngine.state call)
        fun _ => AtWork known batch taken n none moment := fun call he =>
    (store_leads he).post fun _ _ h => hrest ▸ h
  have hown : ∀ e : Effect MigrationMemory, Working.isRest e = true →
      (∀ f, e = .updateMemory f → KeepsBatch f) →
        Runs env known (AtWork known batch taken n none moment) (MigrationEngine.perform e)
          fun _ => AtWork known batch taken n none moment := fun e he hf =>
    TryTriple.perform AtWork.stable (fun _ _ => trivial) fun _ _ _ h hstep =>
      hrest ▸ h.rests he hf hstep
  refine TryTriple.bind (hown .readMemory rfl fun _ hf => by cases hf) fun memory => ?_
  refine iteInduction (motive := fun p => Runs _ _ _ p _) (fun _ => TryTriple.pure fun _ h => h)
    fun _ => ?_
  refine TryTriple.bind (hstore _ rfl) fun _ => TryTriple.bind (hstore _ rfl) fun _ => ?_
  refine TryTriple.bind (hstore _ rfl) fun _ => TryTriple.bind (hstore _ rfl) fun _ => ?_
  exact hown (.updateMemory _) rfl fun _ hf => by
    cases hf
    exact fun _ => rfl

theorem adoptFile_leads (file : LocalFileEntry) (remote : ResourceMetadata) (method : Str) :
    Runs env known (AtWork known batch taken n none .idle)
      (adoptFile root runId baseSummary file remote method)
      fun _ => AtWork known batch taken n none .idle := by
  refine TryTriple.bind (routine_atWork.update _ fun _ => rfl) fun _ => ?_
  refine TryTriple.bind (routine_atWork.modifyReport _) fun _ => ?_
  refine TryTriple.bind (routine_atWork.modifySummary _) fun _ => ?_
  refine TryTriple.bind routine_atWork.memory fun memory => ?_
  exact iteInduction (motive := fun p => Runs _ _ _ p _)
    (fun _ => TryTriple.bind (flushAdoptions_leads rfl)
      fun _ => routine_atWork.persistRootProgress _ _)
    fun _ => routine_atWork.persistRootProgress _ _

theorem leaveOut_leads (file : LocalFileEntry) (operation : Str) {error : MigrationError}
    (herror : (perFileProcessingError error).isSome = true) :
    Runs env known (AtWork known batch taken n none (.blamed (blameOf error)))
      (leaveOut root runId baseSummary file operation error)
      fun _ => AtWork known batch taken n none .idle :=
  TryTriple.bind (flushAdoptions_leads rfl) fun _ =>
    TryTriple.bind (recordFileProcessingFailure_leads file _ _ herror) fun _ =>
      routine_atWork.persistRootProgress _ _

theorem leaveOutMissing_leads (file : LocalFileEntry) :
    Runs env known (AtWork known batch taken n none .idle)
      (leaveOutMissing root runId baseSummary file)
      fun _ => AtWork known batch taken n none .idle := by
  refine TryTriple.bind routine_atWork.livePlan fun plan => ?_
  refine iteInduction (motive := fun p => Runs _ _ _ p _) (fun _ => TryTriple.pure fun _ h => h)
    fun _ => ?_
  refine TryTriple.bind (routine_atWork.register _ _ _) fun missing => ?_
  cases missing with
  | some subtree =>
    refine TryTriple.bind (flushAdoptions_leads rfl) fun _ => ?_
    refine TryTriple.bind (routine_atWork.reporting.recordDeletedSubtree runId subtree) fun _ => ?_
    exact TryTriple.bind (routine_atWork.persistRootProgress _ _) fun _ =>
      TryTriple.pure fun _ h => h
  | none =>
    have hlook : Runs env known (AtWork known batch taken n none .idle)
        (MigrationEngine.perform (.isFile file.localPath)) fun there =>
          AtWork known batch taken n none (if there then .idle else .blamed .givenUp) := by
      refine TryTriple.perform AtWork.stable (fun _ _ => trivial) fun s there s' h hstep => ?_
      have hwork := h.steady rfl (fun _ hf => by cases hf) hstep
      cases there with
      | true => exact hwork
      | false =>
        refine ⟨hwork.working.told ?_,hwork.batch⟩
        rw [Books.endings_step hstep]
        rfl
    refine TryTriple.bind hlook fun there => ?_
    cases there with
    | true => exact TryTriple.pure fun _ h => h
    | false =>
      have herror : (perFileProcessingError (disappearedError file.localPath)).isSome = true := rfl
      exact TryTriple.bind (leaveOut_leads file _ herror) fun _ => TryTriple.pure fun _ h => h

theorem tryAdopt_leads (previous : Str → Option FileStateRecord) (file : LocalFileEntry)
    (remote : ResourceMetadata) :
    Runs env known (Queued known) (tryAdopt config root runId baseSummary previous file remote)
      fun _ => Queued known := by
  refine iteInduction (motive := fun p => Runs _ _ _ p _)
    (fun _ => TryTriple.bind (routine_atWork.modifySummary _) fun _ => TryTriple.pure fun _ h => h)
    fun _ => ?_
  refine TryTriple.bind (TryTriple.lift (remoteMatchesLocal_leads file remote)) fun answer => ?_
  cases answer with
  | error error =>
    refine iteInduction (motive := fun p => Runs _ _ _ p _) (fun hfile => ?_) fun hstop => ?_
    · exact TryTriple.bind ((leaveOut_leads file _ hfile).pre fun _ h => h.1) fun _ =>
        TryTriple.pure fun _ h => h
    · exact TryTriple.throw fun s h => (h.2 (by simpa using hstop)).closed
  | ok decision =>
    refine iteInduction (motive := fun p => Runs _ _ _ p _) (fun _ => ?_)
      fun _ => TryTriple.pure fun _ h => h
    exact TryTriple.bind (adoptFile_leads file remote _) fun _ => TryTriple.pure fun _ h => h

theorem settleFile_leads (previous : Str → Option FileStateRecord) (file : LocalFileEntry) :
    Runs env known (Queued known) (settleFile config root runId baseSummary previous file)
      fun _ => Queued known := by
  refine TryTriple.bind (leaveOutMissing_leads file) fun leftOut => ?_
  refine iteInduction (motive := fun p => Runs _ _ _ p _) (fun _ => TryTriple.pure fun _ h => h)
    fun _ => ?_
  refine TryTriple.bind routine_atWork.memory fun memory => ?_
  generalize (memory.remoteSets.canonical[file.remotePath]?).filter
    (fun resource => resource.resourceType == .file) = found
  cases found with
  | some remote => exact tryAdopt_leads previous file remote
  | none => exact TryTriple.pure fun _ h => h

end Adoption

section Uploads

variable {config : AppConfig} {root : SyncRootConfig} {runId : Int}
  {baseSummary : SyncRunSummary}

theorem AtWork.perm {taken' : List Int} (h : AtWork known batch taken n hand moment s)
    (hp : taken.Perm taken') : AtWork known batch taken' n hand moment s :=
  ⟨h.working.perm (hp.append_right _),h.batch⟩

/-- An operation whose task is not started yet is put at hand. -/
theorem AtWork.takes {id : Int} (h : AtWork known batch (id :: taken) n none moment s) :
    AtWork known batch taken n (some (id,none)) moment s :=
  ⟨h.working.takes rfl,h.batch⟩

/-- What a batch has left behind is put off until it is known to be nothing. -/
abbrev Started (known : List Int) (batch : List MigrationUploadCandidate) (n : Nat)
    (s : Traced ρ MigrationMemory) : Prop :=
  ∃ taken, AtWork known (some batch) taken n none .idle s

theorem spawnCandidates_leads (deferred : List MigrationUploadCandidate)
    (candidates : List MigrationUploadCandidate) (skipped : List Int) (n : Nat) :
    Runs env known (AtWork known (some deferred)
        (candidates.map MigrationUploadCandidate.operationId ++ skipped) n none .idle)
      (spawnCandidates runId baseSummary candidates)
      fun _ => Started known deferred (n+candidates.length) := by
  induction candidates generalizing skipped n with
  | nil => exact TryTriple.pure fun _ h => ⟨_,h⟩
  | cons candidate candidates ih =>
    have hmore : ∀ s : Traced ρ MigrationMemory, Started known deferred (n+candidates.length) s →
        Started known deferred (n+(candidate :: candidates).length) s := by
      rintro s ⟨taken,h⟩
      refine ⟨taken,h.working.mono ?_,h.batch⟩
      rw [List.length_cons]
      omega
    refine TryTriple.bind routine_atWork.livePlan fun plan => ?_
    refine iteInduction (motive := fun p => Runs _ _ _ p _) (fun _ => ?_) fun _ => ?_
    · refine (ih (candidate.operationId :: skipped) n).weaken (fun s h => h.perm ?_)
        (fun _ => hmore) (fun _ h => h) fun _ h => h
      exact List.perm_middle.symm
    refine TryTriple.bind (register_leads _ _ _) fun missing => ?_
    cases missing with
    | some subtree =>
      refine TryTriple.bind ((givesUp_leads _ _).pre fun s h => h.takes) fun _ => ?_
      refine TryTriple.bind (routine_atWork.reporting.recordDeletedSubtree runId subtree) fun _ => ?_
      refine TryTriple.bind (routine_atWork.persistRootProgress _ _) fun _ => ?_
      exact (ih skipped n).post fun _ => hmore
    | none =>
      have hspawn : Runs env known (AtWork known (some deferred)
          (candidates.map MigrationUploadCandidate.operationId ++ skipped) n
            (some (candidate.operationId,none)) .idle)
          (MigrationEngine.perform (.spawn (.upload candidate.operationId candidate.file
            candidate.isUpdate migrationCancelledText)))
          fun _ => AtWork known (some deferred)
            (candidates.map MigrationUploadCandidate.operationId ++ skipped) (n+1) none .idle := by
        refine TryTriple.perform AtWork.stable (fun _ _ => trivial) fun s _ s' h hstep => ?_
        have hkind : (fun task : Task => ¬ task.IsCreate) (.upload candidate.operationId
          candidate.file candidate.isUpdate migrationCancelledText) := id
        exact h.of_working (h.working.spawns hkind hstep)
          (AtWork.memory_eq hstep fun _ he => nomatch he)
      refine TryTriple.bind (hspawn.pre fun s h => h.takes) fun _ => ?_
      rw [show n+(candidate :: candidates).length = n+1+candidates.length by simp; omega]
      exact ih skipped (n+1)

/-- An upload has ended. -/
def Joined (known : List Int) (deferred : List MigrationUploadCandidate)
    (outcome : UploadTaskOutcome) (n : Nat) (s : Traced ρ MigrationMemory) : Prop :=
  (TaskOutcome.uploaded outcome).isCancelled = false ∧
    AtWork known (some deferred) [] n
      (some (outcome.operationId,some (.ofUpload outcome.result))) .idle s

/-- Where every open operation has a task or waits in the batch, none has been left behind. -/
theorem AtWork.taken_eq_nil (h : AtWork known batch taken n none moment s)
    (hopen : ∀ row ∈ s.world.repository.operationJournal.rows,
      (endings s.trace).opened row.id = true → row.status = .running →
        row.id ∈ taskIds s ++ waiting s.world.memory) : taken = [] := by
  refine List.eq_nil_iff_forall_not_mem.mpr fun id hid => ?_
  have hbooks := h.working.books
  simp only [Option.toList_none,List.map_nil,List.nil_append] at hbooks
  obtain ⟨_,hopened,row,hrow,rfl,hstatus⟩ := hbooks.running id (by simp [hid])
  obtain ⟨_,hrest,htasks⟩ := List.nodup_append.mp hbooks.nodup
  rcases List.mem_append.mp (hopen row hrow hopened hstatus) with hmem | hmem
  · exact htasks row.id hmem row.id (by simp [hid]) rfl
  · exact (List.nodup_append.mp hrest).2.2 row.id hid row.id hmem rfl

theorem joins_leads (deferred : List MigrationUploadCandidate) (n : Nat) :
    Runs env known (Started known deferred (n+1)) (MigrationEngine.perform .joinNext)
      fun joined => match joined with
        | some (.uploaded outcome) => Joined known deferred outcome n
        | _ => AtWork known (some deferred) [] 0 none .idle := by
  refine TryTriple.exists_pre fun taken => ?_
  refine TryTriple.perform AtWork.stable (fun _ _ => trivial) fun s joined s' h hstep => ?_
  have htaken : taken = [] := h.taken_eq_nil hstep.1.1
  subst htaken
  have hmemory : s'.world.memory.uploadBatch = s.world.memory.uploadBatch :=
    AtWork.memory_eq hstep fun _ he => nomatch he
  have hjoins := h.working.joins hstep
  match joined with
  | none => exact h.of_working hjoins hmemory
  | some (.uploaded outcome) =>
    obtain ⟨task,_,_,_,hworking⟩ := hjoins
    exact ⟨hstep.1.2 _ rfl,h.of_working hworking hmemory⟩
  | some (.created directory operationId result) =>
    obtain ⟨task,hkind,hyields,_⟩ := hjoins
    cases task with
    | createDirectory directory operationId => exact (hkind trivial).elim
    | upload operationId file isUpdate cancelledText =>
      exact absurd hyields (by simp [Task.Yields])

theorem recordMigrationUploaded_leads (operationId : Int) (file : LocalFileEntry)
    (isUpdate : Bool) :
    Runs env known (AtWork known batch taken n (some (operationId,some .succeeded)) .idle)
      (recordMigrationUploaded root runId baseSummary operationId file isUpdate)
      fun _ => AtWork known batch taken n none .idle := by
  refine TryTriple.bind (closes_leads none none) fun _ => ?_
  have hstatus : Runs env known (AtWork known batch taken n none .idle)
      (fileStatusAfterUpload file) fun _ => AtWork known batch taken n none .idle := by
    refine TryTriple.bind (routine_atWork.routine (.fileMetadata _) rfl) fun found => ?_
    cases found with
    | none => exact TryTriple.pure fun _ h => h
    | some found =>
      exact iteInduction (motive := fun p => Runs _ _ _ p _)
        (fun _ => TryTriple.pure fun _ h => h) fun _ => TryTriple.pure fun _ h => h
  refine TryTriple.bind hstatus fun status => TryTriple.bind (call_leads rfl) fun _ => ?_
  refine TryTriple.bind (routine_atWork.modifySets _) fun _ => ?_
  refine TryTriple.bind (call_leads rfl) fun _ => TryTriple.bind (call_leads rfl) fun _ => ?_
  exact TryTriple.bind (routine_atWork.modifySummary _) fun _ =>
    routine_atWork.persistRootProgress _ _

theorem recordMigrationUploadFailure_leads (outcome : UploadTaskOutcome)
    {failure : UploadTaskFailure} (hran : failure.isCancelled = false) :
    Runs env known (AtWork known batch taken n
        (some (outcome.operationId,some (.ofUpload (.error failure)))) .idle)
      (recordMigrationUploadFailure root runId baseSummary outcome failure)
      fun _ => AtWork known batch taken n none .idle := by
  refine TryTriple.bind (register_leads _ _ _) fun missing => ?_
  cases missing with
  | some subtree =>
    refine TryTriple.bind (givesUp_leads _ _) fun _ => ?_
    refine TryTriple.bind (routine_atWork.reporting.recordDeletedSubtree runId subtree) fun _ => ?_
    exact TryTriple.bind (routine_atWork.persistRootProgress _ _) fun _ =>
      TryTriple.pure fun _ h => h
  | none =>
    dsimp only
    cases hskip : failure.skipReasonCode with
    | some reasonCode =>
      rw [show Ending.ofUpload (.error failure) = .givenUp by simp [Ending.ofUpload,hskip]]
      have hskipped : Runs env known
          (AtWork known batch taken n (some (outcome.operationId,some .givenUp)) .idle)
          (recordMigrationSkipped root runId baseSummary outcome.operationId outcome.file
            reasonCode failure.errorMessage) fun _ => AtWork known batch taken n none .idle := by
        refine TryTriple.bind (closes_leads _ _) fun _ => ?_
        refine TryTriple.bind (call_leads rfl) fun _ => TryTriple.bind (call_leads rfl) fun _ => ?_
        refine TryTriple.bind (call_leads rfl) fun _ => ?_
        exact TryTriple.bind (routine_atWork.modifySummary _) fun _ =>
          routine_atWork.persistRootProgress _ _
      exact TryTriple.bind hskipped fun _ => TryTriple.pure fun _ h => h
    | none =>
      rw [show Ending.ofUpload (.error failure) = .failed by simp [Ending.ofUpload,hran,hskip]]
      refine TryTriple.bind (closes_leads _ _) fun _ => ?_
      refine TryTriple.bind (call_leads rfl) fun _ => TryTriple.bind (call_leads rfl) fun _ => ?_
      refine TryTriple.bind (routine_atWork.modifySummary _) fun _ => ?_
      exact TryTriple.bind (routine_atWork.persistRootProgress _ _) fun _ =>
        TryTriple.pure fun _ h => h

theorem joinRound_leads {deferred : List MigrationUploadCandidate} {fuel : Nat}
    (hrest : ∀ result, Runs env known (AtWork known (some deferred) [] fuel none .idle)
      (joinMigrationUploads root runId baseSummary fuel result)
      fun _ => AtWork known (some deferred) [] 0 none .idle) (result : MigrationUploadResult) :
    Runs env known (Started known deferred (fuel+1))
      (joinMigrationUploads root runId baseSummary (fuel+1) result)
      fun _ => AtWork known (some deferred) [] 0 none .idle := by
  refine TryTriple.bind (joins_leads deferred fuel) fun joined => ?_
  match joined with
  | none => exact TryTriple.pure fun _ h => h
  | some (.created ..) => exact TryTriple.pure fun _ h => h
  | some (.uploaded ⟨operationId,file,isUpdate,.ok _⟩) =>
    exact TryTriple.bind ((recordMigrationUploaded_leads operationId file isUpdate).pre
      fun _ h => h.2) fun _ => hrest _
  | some (.uploaded ⟨operationId,file,isUpdate,.error failure⟩) =>
    refine TryTriple.of_pure (fun _ h => h.1) fun hran => ?_
    exact TryTriple.bind ((recordMigrationUploadFailure_leads _ hran).pre fun _ h => h.2)
      fun _ => hrest _

theorem joinMigrationUploads_leads (deferred : List MigrationUploadCandidate) (fuel : Nat)
    (result : MigrationUploadResult) :
    Runs env known (Started known deferred (fuel+1))
      (joinMigrationUploads root runId baseSummary (fuel+1) result)
      fun _ => AtWork known (some deferred) [] 0 none .idle := by
  induction fuel generalizing result with
  | zero =>
    have hdone : ∀ result, Runs env known (AtWork known (some deferred) [] 0 none .idle)
        (joinMigrationUploads root runId baseSummary 0 result)
        fun _ => AtWork known (some deferred) [] 0 none .idle :=
      fun result => TryTriple.pure fun _ h => h
    exact joinRound_leads hdone result
  | succ fuel ih => exact joinRound_leads (fun result => (ih result).pre fun _ h => ⟨[],h⟩) result

theorem takeMigrationUploadBatch_lt (limit largeThreshold : Nat)
    (candidate : MigrationUploadCandidate) (pending : List MigrationUploadCandidate) :
    (takeMigrationUploadBatch (max limit 1) largeThreshold (candidate :: pending) 0 false).2.length
      ≤ pending.length := by
  rw [takeMigrationUploadBatch_eq]
  have hlimit : 0 < max limit 1 := by omega
  have hbatch : Batching.IsBatch _ (fun candidate : MigrationUploadCandidate =>
      decide (largeThreshold ≤ candidate.file.sizeBytes)) (candidate :: pending) _ _ :=
    Batching.takeBatch_isBatch hlimit _
  have hpos := List.length_pos_iff.mpr (hbatch.ne_nil (List.cons_ne_nil _ _))
  have hlength := hbatch.perm.length_eq
  rw [List.length_append,List.length_cons] at hlength
  omega

theorem uploadRounds_leads (fuel : Nat) (candidates : List MigrationUploadCandidate)
    (hfuel : candidates.length ≤ fuel) (result : MigrationUploadResult) :
    Runs env known (AtWork known (some candidates) [] 0 none .idle)
      (uploadRounds config root runId baseSummary fuel result) fun _ => Idle known := by
  induction fuel generalizing candidates result with
  | zero =>
    have hnil := List.eq_nil_of_length_eq_zero (Nat.le_zero.mp hfuel)
    subst hnil
    exact TryTriple.pure fun _ h => h
  | succ fuel ih =>
    have hreads : Runs env known (AtWork known (some candidates) [] 0 none .idle)
        MigrationEngine.memory fun memory s => memory.uploadBatch = candidates ∧
          AtWork known (some candidates) [] 0 none .idle s := by
      refine TryTriple.perform AtWork.stable (fun _ _ => trivial) fun s memory s' h hstep => ?_
      have hread : memory = s.world.memory := hstep.2.1.1
      exact ⟨hread ▸ h.batch _ rfl,h.steady rfl (fun _ hf => by cases hf) hstep⟩
    refine TryTriple.bind hreads fun memory => ?_
    refine TryTriple.of_pure (fun _ h => h.1) fun hbatch => ?_
    dsimp only
    rw [hbatch]
    cases candidates with
    | nil => exact TryTriple.pure fun _ h => h.2
    | cons candidate candidates =>
      have hperm := takeMigrationUploadBatch_perm (max config.sync.uploadConcurrency 1)
        config.sync.largeFileNameSizeOnlyMinBytes (candidate :: candidates) 0 false
      have hlength := takeMigrationUploadBatch_lt config.sync.uploadConcurrency
        config.sync.largeFileNameSizeOnlyMinBytes candidate candidates
      generalize takeMigrationUploadBatch (max config.sync.uploadConcurrency 1)
        config.sync.largeFileNameSizeOnlyMinBytes (candidate :: candidates) 0 false = next
        at hperm hlength
      have htake : Runs env known (AtWork known (some (candidate :: candidates)) [] 0 none .idle)
          (setUploadBatch next.2) fun _ => AtWork known (some next.2)
            (next.1.map MigrationUploadCandidate.operationId ++ []) 0 none .idle := by
        refine TryTriple.perform AtWork.stable (fun _ _ => trivial) fun s _ s' h hstep => ?_
        have hids : (waiting s.world.memory).Perm
            (next.1.map MigrationUploadCandidate.operationId ++ [] ++
              next.2.map MigrationUploadCandidate.operationId) := by
          rw [waiting,h.batch _ rfl,List.append_nil,← List.map_append]
          exact (hperm.map _).symm
        refine ⟨h.working.update (by exact hids) hstep,?_⟩
        rintro _ ⟨⟩
        rw [hstep.2.1.memory_update]
      refine TryTriple.bind (htake.pre fun _ h => h.2) fun _ => ?_
      refine TryTriple.bind (spawnCandidates_leads next.2 next.1 [] 0) fun _ => ?_
      refine TryTriple.bind ((joinMigrationUploads_leads next.2 next.1.length result).pre ?_)
        fun result => ?_
      · rintro s ⟨taken,h⟩
        exact ⟨taken,h.working.mono (by omega),h.batch⟩
      · exact ih next.2 (by simp at hfuel; omega) result

/-- Reading the variables tells what the batch holds. -/
theorem reads_leads :
    Runs env known (AtWork known batch taken n none .idle) MigrationEngine.memory
      fun memory => AtWork known (some memory.uploadBatch) taken n none .idle := by
  refine TryTriple.perform AtWork.stable (fun _ _ => trivial) fun s memory s' h hstep => ?_
  have hread : memory = s.world.memory := hstep.2.1.1
  have hsteady := h.steady rfl (fun _ hf => by cases hf) hstep
  refine ⟨hsteady.working,?_⟩
  rintro _ ⟨⟩
  rw [AtWork.memory_eq hstep (fun _ he => nomatch he),hread]

theorem applyMigrationUploadBatch_leads :
    Runs env known (Queued known) (applyMigrationUploadBatch config root runId baseSummary)
      fun _ => Idle known :=
  TryTriple.bind reads_leads fun _ => uploadRounds_leads _ _ (Nat.le_refl _) _

theorem queueUpload_leads (file : LocalFileEntry) (isUpdate : Bool) :
    Runs env known (Queued known) (queueUpload runId file isUpdate) fun _ => Queued known := by
  refine TryTriple.bind (opens_leads _) fun operationId => ?_
  have hplanned : Runs env known (AtWork known none [] 0 (some (operationId,none))
      (.calling operationId)) (planned (.uploadFile file.relativePath file.remotePath isUpdate))
      fun _ => AtWork known none [] 0 (some (operationId,none)) .idle :=
    TryTriple.perform AtWork.stable (fun _ _ => trivial) fun _ _ _ h hstep =>
      h.rests rfl (fun _ hf => by cases hf; exact fun _ => rfl) hstep
  refine TryTriple.bind hplanned fun _ => ?_
  refine TryTriple.perform AtWork.stable (fun _ _ => trivial) fun s _ s' h hstep => ?_
  refine ⟨h.working.queues ?_ hstep,fun _ hb => nomatch hb⟩
  simp [waiting]

theorem isCancelled_leads :
    Runs env known (Queued known) MigrationEngine.isCancelled fun cancelled s =>
      Queued known s ∧ (cancelled = true → Idle known s) := by
  refine TryTriple.perform AtWork.stable (fun _ _ => trivial) fun s cancelled s' h hstep => ?_
  refine ⟨h.steady rfl (fun _ hf => by cases hf) hstep,fun hcancelled => ?_⟩
  exact (h.idle (hstep.1 hcancelled)).steady rfl (fun _ hf => by cases hf) hstep

/-- A migration stops for its quota while nothing waits. -/
theorem quotaFails_leads (errorKind errorMessage : Str) :
    Runs env known (Queued known)
      (failRoot root "migration_quota_check".toList errorKind errorMessage)
      fun _ => Idle known := by
  refine TryTriple.bind routine_atWork.memory fun memory => ?_
  have hmark : ∀ record : FailedItemRecord, record.operation = "migration_quota_check".toList →
      Runs env known (Queued known) (MigrationEngine.state (.markFailed record))
        fun _ => Idle known := fun record hrecord =>
    MigrationEngine.state_leads AtWork.stable
      (fun _ _ _ h hstep => (h.idle (hstep.1 hrecord)).steady rfl (fun _ hf => by cases hf) hstep)
      fun _ _ _ h hstep => h.working.error_closed hstep
  exact TryTriple.bind (hmark _ rfl) fun _ => TryTriple.bind (call_leads rfl) fun _ =>
    routine_atWork.modifySummary _

theorem adoptOrUploadEach_leads (previous : Str → Option FileStateRecord)
    (availableRemoteBytes : Option Nat) (files : List LocalFileEntry) (bytesUploaded : Nat) :
    Runs env known (Queued known)
      (adoptOrUploadEach config root runId baseSummary previous availableRemoteBytes files
        bytesUploaded) fun _ => Idle known := by
  induction files generalizing bytesUploaded with
  | nil =>
    refine TryTriple.bind (flushAdoptions_leads rfl) fun _ => TryTriple.bind reads_leads fun memory => ?_
    refine iteInduction (motive := fun p => Runs _ _ _ p _) (fun hempty => ?_) fun _ => ?_
    · rw [List.isEmpty_iff.mp hempty]
      exact TryTriple.pure fun _ h => h
    · refine TryTriple.bind (applyMigrationUploadBatch_leads.pre fun s h => ?_) fun _ =>
        TryTriple.pure fun _ h => h
      exact ⟨h.working,fun _ hb => nomatch hb⟩
  | cons file files ih =>
    refine TryTriple.bind isCancelled_leads fun cancelled => ?_
    refine iteInduction (motive := fun p => Runs _ _ _ p _) (fun hcancelled => ?_) fun _ => ?_
    · exact TryTriple.bind ((flushAdoptions_leads rfl).pre fun _ h => h.2 hcancelled) fun _ =>
        TryTriple.pure fun _ h => h
    refine TryTriple.bind ((settleFile_leads previous file).pre fun _ h => h.1) fun settled => ?_
    refine iteInduction (motive := fun p => Runs _ _ _ p _) (fun _ => ih _) fun _ => ?_
    refine TryTriple.bind (flushAdoptions_leads rfl) fun _ =>
      TryTriple.bind routine_atWork.memory fun memory => ?_
    generalize availableRemoteBytes.filter (fun available =>
      exceedsQuota available bytesUploaded memory.uploadBatch file) = exceeded
    cases exceeded with
    | some available =>
      exact TryTriple.bind (quotaFails_leads _ _) fun _ => TryTriple.pure fun _ h => h
    | none =>
      refine TryTriple.bind (queueUpload_leads file _) fun _ => ?_
      refine iteInduction (motive := fun p => Runs _ _ _ p _) (fun _ => ?_) fun _ => ih _
      refine TryTriple.bind applyMigrationUploadBatch_leads fun result => ?_
      exact iteInduction (motive := fun p => Runs _ _ _ p _)
        (fun _ => TryTriple.pure fun _ h => h) fun _ => (ih _).pre fun _ h => h.queued

theorem applyAdoptOrUpload_idle (availableRemoteBytes : Option Nat) :
    Upholds (Step env) env.TraceDrift (Idle known) (Closed known)
      (applyAdoptOrUpload config root runId baseSummary availableRemoteBytes) :=
  TryTriple.bind (call_leads rfl) fun _ => TryTriple.bind running_idle.livePlan fun _ =>
    TryTriple.pre (adoptOrUploadEach_leads _ _ _ _) fun _ h => h.queued

end Uploads

section Deletes

variable {root : SyncRootConfig} {runId : Int} {baseSummary : SyncRunSummary}

theorem recordMigrationDeleted_leads (operationId : Int) (delete : DeleteCandidate) :
    Runs env known (AtWork known batch taken n (some (operationId,some .succeeded)) .idle)
      (recordMigrationDeleted root runId operationId delete)
      fun _ => AtWork known batch taken n none .idle := by
  refine TryTriple.bind (closes_leads none none) fun _ => ?_
  cases delete.resourceType with
  | file =>
    exact TryTriple.bind (call_leads rfl) fun _ => TryTriple.bind (call_leads rfl) fun _ =>
      call_leads rfl
  | directory =>
    exact TryTriple.bind (call_leads rfl) fun _ => TryTriple.bind (call_leads rfl) fun _ =>
      call_leads rfl

theorem recordDeleteFailure_leads (operationId : Int) (delete : DeleteCandidate) (operation : Str)
    (error : YandexDiskError) :
    Runs env known (AtWork known batch taken n (some (operationId,some .failed)) .idle)
      (recordDeleteFailure root runId baseSummary operationId delete operation error)
      fun _ => AtWork known batch taken n none .idle :=
  TryTriple.bind recordCallFailure_leads fun _ =>
    TryTriple.bind (routine_atWork.persistRootProgress _ _) fun _ => TryTriple.pure fun _ h => h

theorem deleteCandidate_leads (operationId : Int) (delete : DeleteCandidate) :
    Runs env known (AtWork known batch taken n (some (operationId,none)) (.calling operationId))
      (deleteCandidate root runId baseSummary operationId delete)
      fun _ => AtWork known batch taken n none .idle := by
  refine TryTriple.bind (ends_leads (by simp)) fun answer => ?_
  cases answer with
  | ok _ =>
    refine TryTriple.bind (recordMigrationDeleted_leads operationId delete) fun _ => ?_
    refine TryTriple.bind (routine_atWork.modifyReport _) fun _ => ?_
    refine TryTriple.bind (routine_atWork.modifySummary _) fun _ => ?_
    exact TryTriple.bind (routine_atWork.persistRootProgress _ _) fun _ =>
      TryTriple.pure fun _ h => h
  | error error =>
    refine iteInduction (motive := fun p => Runs _ _ _ p _) (fun hkind => ?_) fun hkind => ?_
    · have hgone : Ending.ofCall (.deletePermanently delete.remotePath) (.error error) =
          .succeeded :=
        congrArg Ending.ofSuccess (beq_iff_eq.mpr hkind)
      rw [hgone]
      exact TryTriple.bind (recordMigrationDeleted_leads operationId delete) fun _ =>
        TryTriple.bind (routine_atWork.persistRootProgress _ _) fun _ => TryTriple.pure fun _ h => h
    · have hfailed : Ending.ofCall (.deletePermanently delete.remotePath) (.error error) =
          .failed :=
        congrArg Ending.ofSuccess (beq_eq_false_iff_ne.mpr hkind)
      rw [hfailed]
      exact recordDeleteFailure_leads operationId delete _ error

theorem applyDeleteCandidate_leads (fromCache : Bool) (delete : DeleteCandidate) :
    Runs env known (AtWork known batch taken n none .idle)
      (applyDeleteCandidate root runId baseSummary fromCache delete)
      fun _ => AtWork known batch taken n none .idle := by
  refine TryTriple.bind (opens_leads _) fun operationId => ?_
  refine iteInduction (motive := fun p => Runs _ _ _ p _) (fun _ => ?_)
    fun _ => deleteCandidate_leads operationId delete
  have hcheck : Runs env known
      (AtWork known batch taken n (some (operationId,none)) (.calling operationId))
      (MigrationEngine.client (.metadata delete.remotePath)) (After
        (fun _ => AtWork known batch taken n (some (operationId,none)) (.calling operationId))
        fun error => AtWork known batch taken n
          (some (operationId,some (.ofSuccess (error.kind == .notFound)))) .idle) := by
    refine TryTriple.perform AtWork.stable (fun _ _ => trivial) fun s answer s' h hstep => ?_
    have hmemory : s'.world.memory.uploadBatch = s.world.memory.uploadBatch :=
      AtWork.memory_eq hstep fun _ he => nomatch he
    cases answer with
    | ok metadata => exact h.of_working (h.working.checks hstep) hmemory
    | error error => exact h.of_working (h.working.ends (fun _ _ => rfl) hstep) hmemory
  refine TryTriple.bind hcheck fun answer => ?_
  cases answer with
  | ok _ => exact deleteCandidate_leads operationId delete
  | error error =>
    refine iteInduction (motive := fun p => Runs _ _ _ p _) (fun hkind => ?_) fun hkind => ?_
    · simp only [After,hkind,beq_self_eq_true]
      exact TryTriple.bind (closes_leads none none) fun _ =>
        TryTriple.bind (call_leads rfl) fun _ => TryTriple.pure fun _ h => h
    · simp only [After,beq_eq_false_iff_ne.mpr hkind]
      exact recordDeleteFailure_leads operationId delete _ error

theorem applyDeletes_idle :
    Upholds (Step env) env.TraceDrift (Idle known) (Closed known)
      (applyDeletes root runId baseSummary) := by
  have hdeletes : ∀ fromCache deletes, Upholds (Step env) env.TraceDrift (Idle known)
      (Closed known) (deleteCandidates root runId baseSummary fromCache deletes) := by
    intro fromCache deletes
    induction deletes with
    | nil => exact running_idle.pure _
    | cons delete deletes ih =>
      refine TryTriple.bind running_idle.isCancelled fun cancelled => ?_
      refine iteInduction (motive := fun p => Upholds _ _ _ _ p) (fun _ => running_idle.pure _)
        fun _ => ?_
      refine TryTriple.bind (applyDeleteCandidate_leads fromCache delete) fun stop => ?_
      exact iteInduction (motive := fun p => Upholds _ _ _ _ p) (fun _ => running_idle.pure _)
        fun _ => ih
  exact TryTriple.bind running_idle.memory fun _ => TryTriple.bind running_idle.livePlan fun _ =>
    hdeletes _ _

end Deletes

section Run

theorem executeScanned_idle (ext : Externals) (config : AppConfig) (root : SyncRootConfig)
    (runId : Int) (baseSummary : SyncRunSummary) (canonicalRemotePath : Str)
    (scanReport : ScanReport) (availableRemoteBytes : Option Nat) (forceRemoteRescan : Bool) :
    Upholds (Step env) env.TraceDrift (Idle known) (Closed known)
      (executeScanned ext config root runId baseSummary canonicalRemotePath scanReport
        availableRemoteBytes forceRemoteRescan) := by
  refine running_idle.executeScanned ext config (fun root canonical plan force => ?_)
    (fun root error => call_leads rfl)
    (fun root runId baseSummary report sets available => ?_) root runId baseSummary
    canonicalRemotePath scanReport availableRemoteBytes forceRemoteRescan
  · exact (loadRemoteSets_of inventoryCalls_idle root canonical plan force).catch fun _ h => h
  · have hrecord : Upholds (Step env) env.TraceDrift (Idle known) (Closed known)
        (recordRemoteResources config root sets) :=
      TryTriple.bind (call_leads rfl) fun _ =>
        TryTriple.bind (running_idle.routine .now rfl) fun _ => call_leads rfl
    exact running_idle.migrateRoot ext config hrecord tryTopLevelMove_idle
      (applyMergeMoves_idle ext) (applyAdoptOrUpload_idle available) applyDeletes_idle report

/-- Nothing is open any more and nothing is opened. -/
theorem running_closed : MigrationEngine.Running fun ⦃α⦄ (p : Migrator α) =>
    Upholds (Step env) env.TraceDrift (Closed known) (Closed known) p :=
  MigrationEngine.running_upholds Closed.stable
    (fun _ he _ _ _ h hstep => h.steady (isSteady_of_isRoutine he) hstep)
    (fun _ _ _ _ _ h hstep => h.steady rfl hstep) (fun _ _ _ _ _ h hstep => h.steady rfl hstep)
    fun _ h => h

theorem runOnce_leads (ext : Externals) (config : AppConfig) (options : MigrationRunOptions) :
    TryTriple (Step env) env.TraceDrift (Idle known) (runOnce ext config options)
      (fun _ => Closed known) (Closed known) fun _ => True := by
  refine runOnce_upholds running_idle running_closed (fun _ h => h.closed) ?_ ext config
    (executeScanned_idle ext config) options
  refine Upholds.perform AtWork.stable fun s answer s' h hstep => ?_
  have hrepaired := h.closed.repair hstep
  have htasks : s'.world.tasks = s.world.tasks := hstep.2.1.tasks_eq rfl
  have hmemory : s'.world.memory.uploadBatch = s.world.memory.uploadBatch :=
    AtWork.memory_eq hstep fun _ he => nomatch he
  have hcrew := h.working.crew.of_tasks htasks
  have hwaiting : waiting s'.world.memory = [] := by rw [waiting,hmemory,h.batch _ rfl,List.map_nil]
  refine h.of_working ⟨?_,fun _ _ he => (nomatch he),hrepaired.idle,hcrew⟩ hmemory
  rw [show taskIds s' = [] by simp [taskIds,hcrew.tasks_nil],hwaiting]
  exact hrepaired.books

end Run

end MigrationJournal

end YaDiskSync
